import ApiContract.Proofs.Calendar.Text
import ApiContract.Proofs.Validation.Termination
import ApiContract.Proofs.Validation.Renewal
import ApiContract.Proofs.Value.Wire

/-!
Accepted values on the wire.

What was accepted and is sent comes back as JSON, and a check of it need not accept it again: the
text of an instant may be longer than its rule allows, binary content comes back as an array, and
null stands for a number that is not finite. Where the value is legible at every place that its
acceptance rests on, what comes back is accepted.
-/

namespace ApiContract

open Relation (ReflTransGen)

/-- A scalar that does not lose its place by being written out: an instant of a year with four
digits whose text the rule for it admits, and no binary content under a rule for texts. A number
that is not finite is where null may stand too. -/
structure Document.Legible (document : Document) (v : Value) (s : Schema) : Prop where
  date : ∀ t rule, v = .date t → document.Shapes s (.string rule) →
    0 ≤ t.year ∧ t.year ≤ 9999 ∧ rule.violation? t.text = none
  binary : ∀ bytes rule, v = .binary bytes → ¬document.Shapes s (.string rule)
  number : ∀ x, v = .number x → x.isFinite = false →
    ∃ target, document.resolve s = .ok target ∧ (s.nullable || target.nullable) = true

theorem StringRule.exists_coerce_wire {rule : StringRule} {v w : Value}
    (coerced : rule.coerce v = .ok w)
    (date : ∀ t, v = .date t → 0 ≤ t.year ∧ t.year ≤ 9999 ∧ rule.violation? t.text = none)
    (binary : ∀ bytes, v ≠ .binary bytes) : ∃ u, rule.coerce v.wire = .ok u := by
  cases StringRule.coerce_eq_ok_iff.mp coerced with
  | @date t isDate =>
    obtain ⟨least, most, passes⟩ := date t rfl
    have read := Calendar.Instant.ofText?_text t least most
    exact ⟨_, StringRule.coerce_eq_ok_iff.mpr (.instant passes isDate read)⟩
  | @binary bytes _ => exact absurd rfl (binary bytes)
  | instant _ _ _ => exact ⟨_, coerced⟩
  | text _ _ => exact ⟨_, coerced⟩

theorem NumberRule.violation?_eq_of_alike {rule : NumberRule} {x y : Binary64}
    (alike : x.Alike y) : rule.violation? x = rule.violation? y := by
  have equals : x.equals = y.equals := funext alike.equals_left
  simp only [violation?, alike.less_left, alike.less_right, equals]

theorem NumberRule.exists_coerce_wire {rule : NumberRule} {readsText : Bool} {v : Value}
    {x : Binary64} (coerced : rule.coerce readsText v = .ok x) :
    ∃ y, rule.coerce readsText v.wire = .ok y := by
  obtain ⟨read, finite, whole, passes⟩ := NumberRule.coerce_eq_ok_iff.mp coerced
  cases v with
  | number z =>
    obtain rfl : z = x := Option.some.inj read
    obtain ⟨y, isNumber, alike⟩ := Value.exists_wire_number finite
    refine ⟨y, NumberRule.coerce_eq_ok_iff.mpr ⟨by rw [isNumber]; rfl, alike.finiteToo, ?_, ?_⟩⟩
    · exact fun isInteger => alike.isWhole_eq ▸ whole isInteger
    · exact violation?_eq_of_alike alike ▸ passes
  | string s => exact ⟨x, coerced⟩
  | _ => simp [read?] at read

theorem Value.toBool?_wire {v : Value} {b : Bool} (present : v.wire.isNull = false)
    (read : v.toBool? = some b) : v.wire.toBool? = some b := by
  cases v with
  | number x =>
    have finite : x.isFinite = true := by
      by_contra infinite
      rw [Value.wire_number_eq_null (by simpa using infinite)] at present
      simp [Value.isNull] at present
    obtain ⟨y, isNumber, alike⟩ := Value.exists_wire_number finite
    simpa only [isNumber, Value.toBool?, alike.equals_left] using read
  | bool _ => exact read
  | string _ => exact read
  | _ => simp [Value.toBool?] at read

namespace Validator

open Report

variable {d : Validator} {check : Check} {path : Path} {v w : Value} {schema s node : Schema}
  {parent : Parent} {ps : List Declared} {rule : ObjectRule Schema}
  {members undeclared : List (String × Value)}

/-- The acceptance of a value rests on that of what is inside it, and on the branches that accept
it. Null has no branches. -/
inductive RestsOn (d : Validator) : Value × Schema → Value × Schema → Prop
  | item {items w s} {rule : ArrayRule Schema} : d.document.Shapes s (.array rule) → w ∈ items →
      RestsOn d (.array items, s) (w, rule.items)
  | property {members w s p} {rule : ObjectRule Schema} : d.document.Shapes s (.object rule) →
      Offers d.document rule.properties p → Entries.get? members p.name = some w →
      RestsOn d (.object members, s) (w, p.node)
  | additional {members key w s node} {rule : ObjectRule Schema} :
      d.document.Shapes s (.object rule) → rule.additional = .schema node → (key, w) ∈ members →
      (∀ p, Offers d.document rule.properties p → p.name ≠ key) →
      RestsOn d (.object members, s) (w, node)
  | intersected {v s branches branch} : d.document.Shapes s (.allOf branches) →
      branch ∈ branches → v.wire.isNull = false → RestsOn d (v, s) (v, branch)
  | alternative {v s branches branch} : d.document.Shapes s (.oneOf branches) →
      branch ∈ branches → v.wire.isNull = false →
      (∃ path, (d.validate path v branch .oneOf).IsAccepted) → RestsOn d (v, s) (v, branch)

theorem RestsOn.calls {call next : Value × Schema} (rests : d.RestsOn call next) :
    d.document.Calls call next := by
  cases rests with
  | item shapes isItem =>
    obtain ⟨target, resolved, shape⟩ := shapes
    obtain ⟨i, atItem⟩ := List.mem_iff_getElem?.mp isItem
    exact .inside (.item atItem)
      (Document.leads_of_mem_nodes resolved shape (List.mem_singleton_self _))
  | property shapes offers found =>
    obtain ⟨target, resolved, shape⟩ := shapes
    exact .inside (.entry (Entries.mem_of_get?_eq_some found))
      (Document.leads_of_mem_nodes resolved shape (ObjectRule.mem_nodes_of_property offers.isEntry))
  | additional shapes isSchema isMember _ =>
    obtain ⟨target, resolved, shape⟩ := shapes
    refine .inside (.entry isMember) (Document.leads_of_mem_nodes resolved shape ?_)
    exact List.mem_append_right _ (by simp [isSchema, Additional.nodes])
  | intersected shapes isBranch _ => exact .across (.intersected shapes isBranch)
  | alternative shapes isBranch _ _ => exact .across (.alternative shapes isBranch)

theorem isAccepted_checkArray_wire {rule : ArrayRule Schema} {items : List Value}
    (each : ∀ item ∈ items, ∀ place, (check place item rule.items .array).IsAccepted →
      (check place item.wire rule.items .array).IsAccepted)
    (accepted : (checkArray check path (.array items) rule).IsAccepted) :
    (checkArray check path (Value.array items).wire rule).IsAccepted := by
  obtain ⟨fits, passed⟩ := isAccepted_checkArray_iff.mp accepted
  rw [Value.wire_array]
  refine isAccepted_checkArray_iff.mpr ⟨by simpa using fits, fun i w atWire => ?_⟩
  rw [List.getElem?_map] at atWire
  obtain ⟨item, atItem, rfl⟩ := Option.map_eq_some_iff.mp atWire
  exact each item (List.mem_of_getElem? atItem) _ (passed i item atItem)

theorem isAccepted_checkUndeclared_wire
    (each : ∀ node, rule.additional = .schema node → ∀ e ∈ undeclared, ∀ place,
      (check place e.2 node .object).IsAccepted → (check place e.2.wire node .object).IsAccepted)
    (accepted : (d.checkUndeclared check path v parent rule undeclared).IsAccepted) :
    (d.checkUndeclared check path w parent rule
      (undeclared.map fun e => (e.1, e.2.wire))).IsAccepted := by
  have keys : (undeclared.map fun e => (e.1, e.2.wire)).map Prod.fst = undeclared.map Prod.fst := by
    simp
  obtain ⟨admitted, passed⟩ := isAccepted_checkUndeclared_iff.mp accepted
  rw [isAccepted_checkUndeclared_iff, keys]
  refine ⟨admitted, fun node fate sent isSent => ?_⟩
  obtain ⟨e, isMember, rfl⟩ := List.mem_map.mp isSent
  exact each node (Additional.eq_schema_of_fate_eq_check fate) e isMember _
    (passed node fate e isMember)

theorem isAccepted_checkObject_wire (resolved : declared d.document rule.properties = .ok ps)
    (property : ∀ p, Offers d.document rule.properties p → ∀ w,
      Entries.get? members p.name = some w → ∀ place, (check place w p.node .object).IsAccepted →
        (check place w.wire p.node .object).IsAccepted)
    (additional : ∀ node, rule.additional = .schema node → ∀ key w, (key, w) ∈ members →
      (∀ p, Offers d.document rule.properties p → p.name ≠ key) → ∀ place,
      (check place w node .object).IsAccepted → (check place w.wire node .object).IsAccepted)
    (accepted : (d.checkObject check path (.object members) rule parent).IsAccepted) :
    (d.checkObject check path (Value.object members).wire rule parent).IsAccepted := by
  obtain ⟨properties, undeclared⟩ := (isAccepted_checkObject_iff resolved).mp accepted
  rw [Value.wire_object]
  refine (isAccepted_checkObject_iff resolved).mpr ⟨?_, ?_⟩
  · refine isAccepted_mapM_iff.mpr fun p isDeclared => ?_
    obtain ⟨given, missing⟩ :=
      isAccepted_checkProperty_iff.mp (isAccepted_mapM_iff.mp properties p isDeclared)
    rw [isAccepted_checkProperty_iff, Value.get?_wire]
    refine ⟨fun sent isSent => ?_, fun absent => missing (Option.map_eq_none_iff.mp absent)⟩
    obtain ⟨w, found, rfl⟩ := Option.map_eq_some_iff.mp isSent
    exact property p ((mem_declared_iff resolved).mp isDeclared) w found _ (given w found)
  · rw [List.filter_map]
    refine isAccepted_checkUndeclared_wire (fun node isSchema e isUndeclared => ?_) undeclared
    obtain ⟨isMember, other⟩ := List.mem_filter.mp isUndeclared
    refine additional node isSchema e.1 e.2 isMember fun p offers => ?_
    have isDeclared : p ∈ ps := (mem_declared_iff resolved).mpr offers
    simpa using List.all_eq_true.mp other p isDeclared

/-- A shape accepts what comes back, if that holds of the checks that its acceptance rests on. -/
theorem accepts_wire {target : Schema} (grounded : d.document.Grounded s)
    (legible : d.document.Legible v s) (present : v.wire.isNull = false)
    (each : ∀ u node, d.RestsOn (v, s) (u, node) → ∀ path parent,
      (d.validate path u node parent).IsAccepted → (d.validate path u.wire node parent).IsAccepted)
    (resolved : d.document.resolve s = .ok target)
    (accepts : Accepts d d.validate d.validate path v target parent w) :
    ∃ u, Accepts d d.validate d.validate path v.wire target parent u := by
  cases accepts with
  | @string rule w shape coerced =>
    obtain ⟨u, again⟩ := rule.exists_coerce_wire coerced
      (fun t isDate => legible.date t rule isDate ⟨target, resolved, shape⟩)
      (fun bytes isBinary => legible.binary bytes rule isBinary ⟨target, resolved, shape⟩)
    exact ⟨u, .string shape again⟩
  | number shape coerced =>
    obtain ⟨y, again⟩ := NumberRule.exists_coerce_wire coerced
    exact ⟨_, .number shape again⟩
  | boolean shape read => exact ⟨_, .boolean shape (Value.toBool?_wire present read)⟩
  | any shape => exact ⟨_, .any shape⟩
  | unknown shape => exact ⟨_, .unknown shape⟩
  | @array rule w shape accepted =>
    obtain ⟨items, results, rfl, -⟩ := checkArray_eq_ok.mp accepted
    have shapes : d.document.Shapes s (.array rule) := ⟨target, resolved, shape⟩
    obtain ⟨u, again⟩ := isAccepted_checkArray_wire
      (fun item isItem place => each item rule.items (.item shapes isItem) place .array)
      ⟨w, accepted⟩
    exact ⟨u, .array shape again⟩
  | @object rule w shape accepted =>
    obtain ⟨members, ps, results, extra, rfl, declares, -⟩ := checkObject_eq_ok.mp accepted
    have shapes : d.document.Shapes s (.object rule) := ⟨target, resolved, shape⟩
    obtain ⟨u, again⟩ := isAccepted_checkObject_wire declares
      (fun p offers u found place => each u p.node (.property shapes offers found) place .object)
      (fun node isSchema key u isMember other place =>
        each u node (.additional shapes isSchema isMember other) place .object)
      ⟨w, accepted⟩
    exact ⟨u, .object shape again⟩
  | @allOf branches w shape accepted =>
    have shapes : d.document.Shapes s (.allOf branches) := ⟨target, resolved, shape⟩
    obtain ⟨u, again⟩ := isAccepted_checkAllOf_iff.mpr fun branch isBranch =>
      each v branch (.intersected shapes isBranch present) path .allOf
        (isAccepted_checkAllOf_iff.mp ⟨w, accepted⟩ branch isBranch)
    exact ⟨u, .allOf shape again⟩
  | @oneOf branches w shape accepted =>
    have shapes : d.document.Shapes s (.oneOf branches) := ⟨target, resolved, shape⟩
    obtain ⟨branch, isBranch, passed⟩ := (isAccepted_checkOneOf_iff.mp ⟨w, accepted⟩).2
    have again := each v branch (.alternative shapes isBranch present ⟨path, passed⟩) path .oneOf
      passed
    have decided (node : Schema) (isNode : node ∈ branches) :
        (d.validate path v.wire node .oneOf).IsDecided := by
      have isBranch : d.document.Branch s node := .alternative shapes isNode
      exact isDecided_of_grounded
        (grounded.of_reaches (Document.reaches_of_leads isBranch.leads)) _ _ _
    obtain ⟨u, again⟩ := isAccepted_checkOneOf_iff.mpr ⟨decided, branch, isBranch, again⟩
    exact ⟨u, .oneOf shape again⟩

/-- A value that is accepted, and legible wherever its acceptance rests on, is accepted again when
it comes back from the wire. -/
theorem isAccepted_wire (grounded : d.document.Grounded schema)
    (legible : ∀ u node, ReflTransGen d.RestsOn (v, schema) (u, node) →
      d.document.Legible u node)
    (accepted : (d.validate path v schema parent).IsAccepted) :
    (d.validate path v.wire schema parent).IsAccepted := by
  refine calls_induction (P := fun v s => ∀ path parent,
    (∀ u node, ReflTransGen d.RestsOn (v, s) (u, node) → d.document.Legible u node) →
      (d.validate path v s parent).IsAccepted → (d.validate path v.wire s parent).IsAccepted)
    grounded.unlooped ?_ path parent legible accepted
  rintro v s reaches each path parent legible ⟨w, accepted⟩
  have here : d.document.Legible v s := legible v s .refl
  rw [validate_outcome] at accepted
  obtain ⟨target, resolved, verdict⟩ := step_eq_ok.mp accepted
  cases nulled : v.wire.isNull with
  | true =>
    have nullable : (s.nullable || target.nullable) = true := by
      rcases verdict with ⟨-, accepted⟩ | ⟨present, -⟩
      · exact (checkNull_eq_ok.mp accepted).1
      · rcases Value.isNull_wire_iff.mp nulled with rfl | ⟨x, rfl, infinite⟩
        · simp [Value.isNull] at present
        · obtain ⟨other, again, nullable⟩ := here.number x rfl infinite
          obtain rfl : target = other := Except.ok.inj (resolved.symm.trans again)
          exact nullable
    refine ⟨(s.default? <|> target.default?).getD .null, ?_⟩
    rw [validate_outcome]
    exact step_eq_ok.mpr ⟨target, resolved, .inl ⟨nulled, checkNull_eq_ok.mpr ⟨nullable, rfl⟩⟩⟩
  | false =>
    rcases verdict with ⟨isNull, -⟩ | ⟨-, accepts⟩
    · simp [Value.eq_null_of_isNull isNull, Value.isNull] at nulled
    have again (u : Value) (node : Schema) (rests : d.RestsOn (v, s) (u, node)) (path : Path)
        (parent : Parent) := each u node rests.calls path parent fun w inner later =>
      legible w inner (.head rests later)
    obtain ⟨u, accepts⟩ :=
      accepts_wire (grounded.of_reaches reaches) here nulled again resolved accepts
    exact isAccepted_of_accepts resolved nulled accepts

end Validator

end ApiContract

import ApiContract.Proofs.Validation.Idempotence

/-!
Branches that see one value.

A branch of a union sees what another branch made of a value when the result is checked again, and
a branch of an intersection sees what all of them made of it. Two branches `Concurs` when the second
does nothing else to a value that the first accepts. An intersection `Composes` when it has one
branch, when its branches are scalars of one kind, or when they are objects that strip undeclared
keys and declare alike what they share.
-/

namespace ApiContract

/-- Scalar shapes that read values alike, whatever else they ask of them. -/
inductive Shape.SameKind : Shape Schema → Shape Schema → Prop
  | text {rule other} : rule.isDate = false → other.isDate = false →
      SameKind (.string rule) (.string other)
  | instant {rule other} : rule.isDate = true → other.isDate = true →
      SameKind (.string rule) (.string other)
  | number {rule other} : SameKind (.number rule) (.number other)
  | boolean : SameKind .boolean .boolean

theorem StringRule.Reads.unique {rule other : StringRule} {v w u : Value}
    (same : rule.isDate = other.isDate) (first : rule.Reads v w) (second : other.Reads v u) :
    w = u := by
  cases first with
  | date => cases second; rfl
  | binary => cases second; rfl
  | instant _ isDate read =>
    cases second with
    | instant _ _ readAgain =>
      rw [read] at readAgain
      rw [Option.some.inj readAgain]
    | text _ notDate => simp [same, notDate] at isDate
  | text _ notDate =>
    cases second with
    | instant _ isDate _ => simp [same, isDate] at notDate
    | text => rfl

theorem NumberRule.eq_of_coerce_eq_ok {rule other : NumberRule} {readsText : Bool} {v : Value}
    {x y : Binary64} (first : rule.coerce readsText v = .ok x)
    (second : other.coerce readsText v = .ok y) : x = y := by
  have read := (coerce_eq_ok_iff.mp first).1
  rw [(coerce_eq_ok_iff.mp second).1] at read
  exact (Option.some.inj read).symm

namespace Validator

variable {d : Validator} {check inside inside' across across' : Check} {path : Path}
  {v w u : Value} {parent parent' : Parent} {branches : List Schema} {rule : ObjectRule Schema}
  {ps : List Declared} {members entries : List (String × Value)} {results : List Value}

/-- What the first schema makes of a value the second makes of it too, or it turns the value down. A
fault of the schema does not count as turning it down. -/
def Concurs (d : Validator) (parent : Parent) (a b : Schema) : Prop :=
  ∀ path v w, v.isNull = false → (d.validate path v a parent).outcome = .ok w →
    (d.validate path v b parent).outcome = .ok w ∨
      ∃ failure, (d.validate path v b parent).outcome = .error (.invalid failure)

theorem Concurs.refl (a : Schema) : d.Concurs parent a a := fun _ _ _ _ => .inl

/-- Objects that leave undeclared keys to each other, and have the same node for a property that
several of them declare. -/
structure Additive (d : Validator) (branches : List Schema) : Prop where
  strips : ∀ branch ∈ branches, ∃ rule, d.document.Shapes branch (.object rule) ∧
    rule.additional.Strips d.switches .allOf
  alike : ∀ a ∈ branches, ∀ b ∈ branches, ∀ rule other, d.document.Shapes a (.object rule) →
    d.document.Shapes b (.object other) → ∀ key node node', (key, node) ∈ rule.properties →
    (key, node') ∈ other.properties → node = node'

inductive Composes (d : Validator) (branches : List Schema) : Prop
  | few : branches.length ≤ 1 → Composes d branches
  | scalars : (∀ a ∈ branches, ∀ b ∈ branches, ∃ shape other, d.document.Shapes a shape ∧
      d.document.Shapes b other ∧ shape.SameKind other) → Composes d branches
  | objects : d.Additive branches → Composes d branches

theorem accepts_of_validate_eq_ok {schema target : Schema} (present : v.isNull = false)
    (resolved : d.document.resolve schema = .ok target)
    (accepted : (d.validate path v schema parent).outcome = .ok w) :
    Accepts d d.validate d.validate path v target parent w := by
  rw [validate_outcome] at accepted
  obtain ⟨other, resolvedAgain, accepted⟩ := step_eq_ok.mp accepted
  obtain rfl : target = other := Except.ok.inj (resolved.symm.trans resolvedAgain)
  rcases accepted with ⟨isNull, -⟩ | ⟨-, accepts⟩
  · simp [present] at isNull
  · exact accepts

/-- Scalars of one kind make the same of a value, and no object. -/
theorem eq_of_sameKind {a b : Schema} {shape other : Shape Schema} (kind : shape.SameKind other)
    (present : v.isNull = false) (isShape : d.document.Shapes a shape)
    (isOther : d.document.Shapes b other)
    (first : (d.validate path v a parent).outcome = .ok w)
    (second : (d.validate path v b parent').outcome = .ok u) :
    w = u ∧ ∀ members, w ≠ .object members := by
  obtain ⟨s, resolved, rfl⟩ := isShape
  obtain ⟨t, resolvedOther, rfl⟩ := isOther
  have accepts := accepts_of_validate_eq_ok present resolved first
  have acceptsOther := accepts_of_validate_eq_ok present resolvedOther second
  generalize isShape : s.shape = shape at kind
  generalize isOther : t.shape = other at kind
  cases kind with
  | text notDate otherNotDate =>
    have reads := accepts.of_string isShape
    refine ⟨reads.unique (notDate.trans otherNotDate.symm) (acceptsOther.of_string isOther), ?_⟩
    rintro members rfl
    cases reads
  | instant isDate otherIsDate =>
    have reads := accepts.of_string isShape
    refine ⟨reads.unique (isDate.trans otherIsDate.symm) (acceptsOther.of_string isOther), ?_⟩
    rintro members rfl
    cases reads
  | number =>
    obtain ⟨x, coerced, rfl⟩ := accepts.of_number isShape
    obtain ⟨y, coercedOther, rfl⟩ := acceptsOther.of_number isOther
    exact ⟨congrArg Value.number (NumberRule.eq_of_coerce_eq_ok coerced coercedOther), by simp⟩
  | boolean =>
    obtain ⟨x, read, rfl⟩ := accepts.of_boolean isShape
    obtain ⟨y, readOther, rfl⟩ := acceptsOther.of_boolean isOther
    rw [read] at readOther
    exact ⟨congrArg Value.bool (Option.some.inj readOther), by simp⟩

theorem ok_or_refused_of_sameKind {b : Schema} {shape other : Shape Schema}
    (kind : shape.SameKind other) (present : v.isNull = false)
    (isOther : d.document.Shapes b other) :
    (∃ w, (d.validate path v b parent).outcome = .ok w) ∨
      ∃ failure, (d.validate path v b parent).outcome = .error (.invalid failure) := by
  obtain ⟨t, resolved, rfl⟩ := isOther
  generalize isOther : t.shape = other at kind
  rw [validate_outcome]
  cases kind with
  | @text _ rule | @instant _ rule =>
    cases coerced : rule.coerce v <;>
      simp [step, resolved, isOther, present, Except.mapError, checkString, coerced,
        Validation.refuse]
  | @number _ rule =>
    cases coerced : rule.coerce (d.readsText path) v <;>
      simp [step, resolved, isOther, present, Except.mapError, checkNumber, coerced,
        Validation.refuse]
  | boolean =>
    cases read : v.toBool? <;>
      simp [step, resolved, isOther, present, Except.mapError, checkBoolean, read,
        Validation.refuse]

theorem concurs_of_sameKind {a b : Schema} {shape other : Shape Schema}
    (kind : shape.SameKind other) (isShape : d.document.Shapes a shape)
    (isOther : d.document.Shapes b other) : d.Concurs parent a b := by
  intro path v w present accepted
  have judged : (∃ u, (d.validate path v b parent).outcome = .ok u) ∨ _ :=
    ok_or_refused_of_sameKind kind present isOther
  rcases judged with ⟨u, acceptedOther⟩ | refused
  · obtain ⟨rfl, -⟩ := eq_of_sameKind kind present isShape isOther accepted acceptedOther
    exact .inl acceptedOther
  · exact .inr refused

theorem tryBranch_ne_invalid {node : Schema} {index : Nat} (failure : Failure) :
    (tryBranch check path v node index).outcome ≠ .error (.invalid failure) := by
  intro refused
  unfold tryBranch at refused
  simp only [Report.outcome_bind_eq_error, Report.outcome_attempt, reduceCtorEq, false_or,
    Except.ok.injEq, exists_eq_left'] at refused
  cases tried : (check path v node .oneOf).outcome with
  | ok w => simp [tried] at refused
  | error cause => cases cause <;> simp [tried, Except.map] at refused

theorem exists_richest {results : List (Nat × Value)} (nonempty : results ≠ []) :
    ∃ best, richest results = some best := by
  cases results with
  | nil => exact absurd rfl nonempty
  | cons first rest => exact ⟨_, rfl⟩

theorem candidates_ne_nil {branch : Schema} {results : List (Option (Nat × Value))}
    (isBranch : branch ∈ branches) (accepted : (check path v branch .oneOf).outcome = .ok w)
    (related : List.Forall₂ (fun (e : Schema × Nat) result =>
      (tryBranch check path v e.1 e.2).outcome = .ok result) branches.zipIdx results) :
    results.filterMap id ≠ [] := by
  obtain ⟨i, inBounds, rfl⟩ := List.getElem_of_mem isBranch
  have isEntry : (branches[i], i) ∈ branches.zipIdx := by
    simp [List.mem_zipIdx_iff_getElem?, inBounds]
  obtain ⟨result, isResult, tried⟩ := Outcome.exists_mem_right_of_forall₂ related isEntry
  rcases tryBranch_eq_ok.mp tried with ⟨made, -, rfl⟩ | ⟨failure, refused, -⟩
  · exact List.ne_nil_of_mem (List.mem_filterMap.mpr ⟨_, isResult, rfl⟩)
  · simp [accepted] at refused

/-- A union does not turn down what one of its branches accepts. -/
theorem checkOneOf_ne_invalid {branch : Schema} (isBranch : branch ∈ branches)
    (accepted : (check path v branch .oneOf).outcome = .ok w) (failure : Failure) :
    (checkOneOf check path v branches).outcome ≠ .error (.invalid failure) := by
  intro refused
  unfold checkOneOf at refused
  rcases Report.outcome_bind_eq_error.mp refused with refused | ⟨results, tried, refused⟩
  · obtain ⟨before, e, after, -, -, refused⟩ := Report.outcome_mapM_eq_error.mp refused
    exact tryBranch_ne_invalid failure refused
  · have candidates := candidates_ne_nil isBranch accepted (Report.outcome_mapM_eq_ok.mp tried)
    obtain ⟨⟨index, made⟩, chosen⟩ := exists_richest candidates
    rw [chosen] at refused
    simp [Except.map] at refused

/-- A union leaves a value alone if one of its branches does and the others concur. -/
theorem checkOneOf_again {branch : Schema} (isBranch : branch ∈ branches)
    (settled : (check path w branch .oneOf).outcome = .ok w)
    (others : ∀ node ∈ branches, (check path w node .oneOf).outcome = .ok w ∨
      ∃ failure, (check path w node .oneOf).outcome = .error (.invalid failure)) :
    (checkOneOf check path w branches).outcome = .ok w := by
  have tries (e : Schema × Nat) (isEntry : e ∈ branches.zipIdx) :
      ∃ result, (tryBranch check path w e.1 e.2).outcome = .ok result ∧
        ∀ made, result = some made → made.2 = w := by
    rcases others e.1 (List.fst_mem_of_mem_zipIdx isEntry) with accepted | ⟨failure, refused⟩
    · exact ⟨_, tryBranch_eq_ok.mpr (.inl ⟨w, accepted, rfl⟩), by simp⟩
    · exact ⟨none, tryBranch_eq_ok.mpr (.inr ⟨failure, refused, rfl⟩), by simp⟩
  obtain ⟨results, related⟩ := Outcome.exists_forall₂ tries
  have tried := related.imp fun _ _ => And.left
  obtain ⟨⟨index, made⟩, chosen⟩ := exists_richest (candidates_ne_nil isBranch settled tried)
  obtain ⟨result, isResult, same⟩ := List.mem_filterMap.mp (mem_of_richest_eq_some chosen)
  obtain ⟨e, -, -, settles⟩ := Outcome.exists_mem_left_of_forall₂ related isResult
  obtain rfl : made = w := settles _ same
  exact checkOneOf_eq_ok.mpr ⟨results, tried, index, chosen⟩

/-- An intersection accepts the merged value again as it is if each branch makes of it what it made
before. -/
theorem checkAllOf_merged {first : Value} {rest : List Value}
    (related : List.Forall₂ (fun branch result =>
      (check path (rest.foldl merge first) branch .allOf).outcome = .ok result) branches
      (first :: rest)) :
    (checkAllOf check path (rest.foldl merge first) branches).outcome =
      .ok (rest.foldl merge first) :=
  checkAllOf_eq_ok.mpr ⟨first :: rest, related, rfl⟩

theorem foldl_merge_of_same (flat : ∀ members, w ≠ .object members)
    (same : ∀ result ∈ results, result = w) : results.foldl merge w = w := by
  induction results with
  | nil => rfl
  | cons next results ih =>
    obtain rfl := same next List.mem_cons_self
    have later := ih fun result isLater => same result (List.mem_cons_of_mem next isLater)
    rw [List.foldl_cons]
    cases next with
    | object members => exact absurd rfl (flat members)
    | _ => exact later

/-- Merged objects have the keys of all of them, and no other entries than theirs. -/
theorem foldl_merge_objects {first : Value} {rest : List Value}
    (objects : ∀ result ∈ first :: rest, ∃ es, result = .object es) :
    ∃ merged, rest.foldl merge first = .object merged ∧
      (∀ e ∈ merged, ∃ es, .object es ∈ first :: rest ∧ e ∈ es) ∧
      ∀ es, .object es ∈ first :: rest → ∀ key ∈ Entries.keys es, key ∈ Entries.keys merged := by
  induction rest generalizing first with
  | nil =>
    obtain ⟨es, rfl⟩ := objects first List.mem_cons_self
    exact ⟨es, rfl, by simp, by simp⟩
  | cons next rest ih =>
    obtain ⟨es, rfl⟩ := objects first List.mem_cons_self
    obtain ⟨more, rfl⟩ := objects next (by simp)
    have others : ∀ result ∈ .object (Entries.extend es more) :: rest,
        ∃ es, result = .object es := by
      intro result isResult
      rcases List.mem_cons.mp isResult with rfl | later
      · exact ⟨_, rfl⟩
      · exact objects result (by simp [later])
    obtain ⟨merged, folded, entries, keys⟩ := ih others
    refine ⟨merged, folded, ?_, ?_⟩
    · intro e isMerged
      obtain ⟨source, isSource, isEntry⟩ := entries e isMerged
      rcases List.mem_cons.mp isSource with isFirst | later
      · obtain rfl := Value.object.inj isFirst
        rcases Entries.mem_of_mem_extend isEntry with isEarlier | isLater
        · exact ⟨es, by simp, isEarlier⟩
        · exact ⟨more, by simp, isLater⟩
      · exact ⟨source, by simp [later], isEntry⟩
    · intro source isSource key isKey
      have inExtended (known : key ∈ Entries.keys es ∨ key ∈ Entries.keys more) :
          key ∈ Entries.keys merged :=
        keys _ List.mem_cons_self key (Entries.mem_keys_extend.mpr known)
      simp only [List.mem_cons, Value.object.injEq] at isSource
      rcases isSource with rfl | rfl | later
      · exact inExtended (.inl isKey)
      · exact inExtended (.inr isKey)
      · exact keys source (List.mem_cons_of_mem _ later) key isKey

/-- The entries of an object are what a check makes of the declared members. -/
structure Picks (check : Check) (path : Path) (ps : List Declared)
    (members entries : List (String × Value)) : Prop where
  source : ∀ e ∈ entries, ∃ p ∈ ps, p.name = e.1 ∧ ∃ v, Entries.get? members e.1 = some v ∧
    (check (path.child (.key e.1)) v p.node .object).outcome = .ok e.2
  found : ∀ p ∈ ps, ∀ v, Entries.get? members p.name = some v →
    ∃ w, (check (path.child (.key p.name)) v p.node .object).outcome = .ok w ∧
      Entries.get? entries p.name = some w

theorem picks_of_checkObject_eq_ok (strips : rule.additional.Strips d.switches parent)
    (distinct : Entries.Distinct rule.properties)
    (noDefault : ∀ p, Offers d.document rule.properties p → p.default? = none)
    (accepted : (d.checkObject check path v rule parent).outcome = .ok w) :
    ∃ members ps entries, v = .object members ∧ declared d.document rule.properties = .ok ps ∧
      w = .object entries ∧ Picks check path ps members entries := by
  obtain ⟨members, ps, results, extra, rfl, resolved, properties, undeclared, rfl⟩ :=
    checkObject_eq_ok.mp accepted
  rw [outcome_checkUndeclared_of_strips strips] at undeclared
  obtain rfl : [] = extra := Except.ok.inj undeclared
  have named : Named ps results := properties.imp fun _ _ => name_of_checkProperty_eq_ok
  refine ⟨members, ps, results.filterMap id ++ [], rfl, resolved, rfl, ?_, ?_⟩
  · rw [List.append_nil]
    intro e isEntry
    obtain ⟨result, isResult, rfl⟩ := List.mem_filterMap.mp isEntry
    obtain ⟨p, isDeclared, passed⟩ := Outcome.exists_mem_left_of_forall₂ properties isResult
    have name : e.1 = p.name := name_of_checkProperty_eq_ok passed e rfl
    refine ⟨p, isDeclared, name.symm, ?_⟩
    cases given : Entries.get? members p.name with
    | some v =>
      obtain ⟨w, checked, same⟩ := (checkProperty_eq_ok_of_some given).mp passed
      obtain rfl := Option.some.inj same
      exact ⟨v, given, checked⟩
    | none =>
      have filled := noDefault p ((mem_declared_iff resolved).mp isDeclared)
      rcases (checkProperty_eq_ok_of_none given).mp passed with ⟨-, -, none⟩ | ⟨-, default⟩
      · simp at none
      · simp [filled] at default
  · intro p isDeclared v given
    have noExtra : ∀ e ∈ ([] : List (String × Value)), ∀ p ∈ ps, p.name ≠ e.1 := by simp
    have found := get?_results named properties (nodup_names_of_declared distinct resolved) noExtra
    obtain ⟨result, -, passed, found⟩ := Outcome.exists_mem_right_of_forall₂ found isDeclared
    obtain ⟨w, checked, rfl⟩ := (checkProperty_eq_ok_of_some given).mp passed
    exact ⟨w, checked, found⟩

theorem Picks.get?_of_mem {qs : List Declared} {others : List (String × Value)}
    (first : Picks check path ps members entries) (second : Picks check path qs members others)
    (alike : ∀ p ∈ ps, ∀ q ∈ qs, p.name = q.name → p.node = q.node) {q : Declared}
    (isDeclared : q ∈ qs) (isEntry : (q.name, w) ∈ entries) :
    Entries.get? others q.name = some w := by
  obtain ⟨p, pDeclared, name, v, given, checked⟩ := first.source _ isEntry
  have node : p.node = q.node := alike p pDeclared q isDeclared name
  obtain ⟨u, checkedAgain, found⟩ := second.found q isDeclared v given
  rw [← node, checked] at checkedAgain
  obtain rfl : w = u := Except.ok.inj checkedAgain
  exact found

/-- In a merged object each branch finds its own result for the properties that it declares. -/
theorem Picks.get?_merged {merged : List (String × Value)}
    (picks : Picks check path ps members entries) (isResult : .object entries ∈ results)
    (sources : ∀ e ∈ merged, ∃ es, .object es ∈ results ∧ e ∈ es)
    (keys : ∀ es, .object es ∈ results → ∀ key ∈ Entries.keys es, key ∈ Entries.keys merged)
    (each : ∀ es, .object es ∈ results → ∃ qs, Picks check path qs members es ∧
      ∀ q ∈ qs, ∀ p ∈ ps, q.name = p.name → q.node = p.node)
    {p : Declared} (isDeclared : p ∈ ps) :
    Entries.get? merged p.name = Entries.get? entries p.name := by
  cases found : Entries.get? merged p.name with
  | some w =>
    obtain ⟨es, isSource, inSource⟩ := sources _ (Entries.mem_of_get?_eq_some found)
    obtain ⟨qs, others, alike⟩ := each es isSource
    exact (others.get?_of_mem picks alike isDeclared inSource).symm
  | none =>
    have absent : p.name ∉ Entries.keys merged := by simp [Entries.mem_keys_iff, found]
    have missing : p.name ∉ Entries.keys entries :=
      fun isKey => absent (keys entries isResult p.name isKey)
    rw [Entries.mem_keys_iff, Option.not_isSome_iff_eq_none] at missing
    exact missing.symm

/-- A branch that is an object picks from the value what it declares. -/
theorem picks_of_validate_eq_ok {branch : Schema}
    (noDefault : ∀ node, d.document.Reaches branch node → node.default? = none)
    (keyed : ∀ node, d.document.Reaches branch node → node.Keyed) (present : v.isNull = false)
    (shapes : d.document.Shapes branch (.object rule))
    (strips : rule.additional.Strips d.switches parent)
    (accepted : (d.validate path v branch parent).outcome = .ok w) :
    ∃ members ps entries, v = .object members ∧ declared d.document rule.properties = .ok ps ∧
      w = .object entries ∧ Picks d.validate path ps members entries := by
  obtain ⟨target, resolved, shape⟩ := shapes
  have toTarget : d.document.Reaches branch target := Document.reaches_of_resolve_eq_ok resolved
  have passed := (accepts_of_validate_eq_ok present resolved accepted).of_object shape
  refine picks_of_checkObject_eq_ok strips (keyed target toTarget _ shape) ?_ passed
  intro p offers
  have isNode := ObjectRule.mem_nodes_of_property offers.isEntry
  have toNode := Document.reaches_of_leads (Document.leads_of_mem_nodes resolved shape isNode)
  have toEnd := toNode.trans (Document.reaches_of_resolve_eq_ok offers.resolved)
  simp [Declared.default?, noDefault _ toNode, noDefault _ toEnd]

/-- Objects that add up accept their merged results, and make of them what they made before. -/
theorem Additive.again {first : Value} {rest : List Value} (additive : d.Additive branches)
    (noDefault : ∀ branch ∈ branches, ∀ node, d.document.Reaches branch node →
      node.default? = none)
    (keyed : ∀ branch ∈ branches, ∀ node, d.document.Reaches branch node → node.Keyed)
    (present : v.isNull = false)
    (related : List.Forall₂ (fun branch result =>
      (d.validate path v branch .allOf).outcome = .ok result ∧
        (d.validate path result branch .allOf).outcome = .ok result) branches (first :: rest)) :
    (rest.foldl merge first).isNull = false ∧ List.Forall₂ (fun branch result =>
      (d.validate path (rest.foldl merge first) branch .allOf).outcome = .ok result)
      branches (first :: rest) := by
  have picks (branch : Schema) (isBranch : branch ∈ branches) (result : Value)
      (accepted : (d.validate path v branch .allOf).outcome = .ok result) :
      ∃ rule members ps entries, d.document.Shapes branch (.object rule) ∧
        rule.additional.Strips d.switches .allOf ∧ v = .object members ∧
        declared d.document rule.properties = .ok ps ∧ result = .object entries ∧
        Picks d.validate path ps members entries := by
    obtain ⟨rule, shapes, strips⟩ := additive.strips branch isBranch
    obtain ⟨members, ps, entries, same, resolved, made, picks⟩ := picks_of_validate_eq_ok
      (noDefault branch isBranch) (keyed branch isBranch) present shapes strips accepted
    exact ⟨rule, members, ps, entries, shapes, strips, same, resolved, made, picks⟩
  have objects : ∀ result ∈ first :: rest, ∃ es, result = .object es := by
    intro result isResult
    obtain ⟨branch, isBranch, accepted, -⟩ := Outcome.exists_mem_left_of_forall₂ related isResult
    obtain ⟨_, _, _, entries, -, -, -, -, made, -⟩ := picks branch isBranch result accepted
    exact ⟨entries, made⟩
  obtain ⟨merged, folded, sources, keys⟩ := foldl_merge_objects objects
  rw [folded]
  refine ⟨rfl, Outcome.forall₂_imp_of_mem related ?_⟩
  rintro branch isBranch result isResult ⟨accepted, again⟩
  obtain ⟨rule, members, ps, entries, shapes, strips, rfl, resolved, rfl, own⟩ :=
    picks branch isBranch result accepted
  have each (es : List (String × Value)) (isSource : .object es ∈ first :: rest) :
      ∃ qs, Picks d.validate path qs members es ∧
        ∀ q ∈ qs, ∀ p ∈ ps, q.name = p.name → q.node = p.node := by
    obtain ⟨a, isOther, acceptedOther, -⟩ := Outcome.exists_mem_left_of_forall₂ related isSource
    obtain ⟨other, _, qs, _, otherShapes, -, isObject, otherResolved, made, otherPicks⟩ :=
      picks a isOther _ acceptedOther
    obtain rfl := Value.object.inj isObject
    obtain rfl := Value.object.inj made
    refine ⟨qs, otherPicks, fun q qDeclared p pDeclared name => ?_⟩
    have qEntry := (mem_properties_of_mem_declared otherResolved qDeclared).1
    have pEntry := (mem_properties_of_mem_declared resolved pDeclared).1
    rw [name] at qEntry
    exact additive.alike a isOther branch isBranch _ _ otherShapes shapes _ _ _ qEntry pEntry
  obtain ⟨target, resolvedBranch, shape⟩ := shapes
  rw [outcome_validate_object resolvedBranch shape] at again ⊢
  rw [← again]
  refine outcome_checkObject_of_strips strips fun qs declares p isDeclared => ?_
  obtain rfl : ps = qs := Except.ok.inj (resolved.symm.trans declares)
  exact own.get?_merged isResult sources keys each isDeclared

theorem eq_of_scalars {first : Value} {rest : List Value} (present : v.isNull = false)
    (scalars : ∀ a ∈ branches, ∀ b ∈ branches, ∃ shape other, d.document.Shapes a shape ∧
      d.document.Shapes b other ∧ shape.SameKind other)
    (related : List.Forall₂ (fun branch result =>
      (d.validate path v branch .allOf).outcome = .ok result) branches (first :: rest)) :
    (∀ members, first ≠ .object members) ∧ ∀ result ∈ first :: rest, result = first := by
  have either (result : Value) (isResult : result ∈ first :: rest) :
      first = result ∧ ∀ members, first ≠ .object members := by
    obtain ⟨a, isFirst, accepted⟩ :=
      Outcome.exists_mem_left_of_forall₂ related (List.mem_cons_self (l := rest))
    obtain ⟨b, isOther, acceptedOther⟩ := Outcome.exists_mem_left_of_forall₂ related isResult
    obtain ⟨shape, other, shapes, shapesOther, kind⟩ := scalars a isFirst b isOther
    exact eq_of_sameKind kind present shapes shapesOther accepted acceptedOther
  exact ⟨(either first List.mem_cons_self).2,
    fun result isResult => (either result isResult).1.symm⟩

theorem checkAllOf_again_of_composes (composes : d.Composes branches)
    (noDefault : ∀ branch ∈ branches, ∀ node, d.document.Reaches branch node →
      node.default? = none)
    (keyed : ∀ branch ∈ branches, ∀ node, d.document.Reaches branch node → node.Keyed)
    (present : v.isNull = false)
    (keeps : ∀ branch ∈ branches, ∀ w, (across path v branch .allOf).outcome = .ok w →
      w.isNull = false ∧ (d.validate path v branch .allOf).outcome = .ok w ∧
        (d.validate path w branch .allOf).outcome = .ok w)
    (accepted : (checkAllOf across path v branches).outcome = .ok w) :
    w.isNull = false ∧ (checkAllOf d.validate path w branches).outcome = .ok w := by
  by_cases few : branches.length ≤ 1
  · refine checkAllOf_again present few (fun branch isBranch w passed => ?_) accepted
    obtain ⟨present, -, again⟩ := keeps branch isBranch w passed
    exact ⟨present, again⟩
  obtain ⟨results, passed, made⟩ := checkAllOf_eq_ok.mp accepted
  have settled := Outcome.forall₂_imp_of_mem passed fun branch isBranch result _ =>
    keeps branch isBranch result
  cases results with
  | nil =>
    obtain rfl := List.forall₂_nil_right_iff.mp passed
    exact absurd (Nat.zero_le 1) few
  | cons first rest =>
    obtain rfl : w = rest.foldl merge first := made
    cases composes with
    | few single => exact absurd single few
    | scalars kinds =>
      obtain ⟨flat, same⟩ :=
        eq_of_scalars present kinds (settled.imp fun _ _ settled => settled.2.1)
      have merged : rest.foldl merge first = first :=
        foldl_merge_of_same flat fun result later => same result (List.mem_cons_of_mem _ later)
      obtain ⟨_, -, presentAgain, -⟩ :=
        Outcome.exists_mem_left_of_forall₂ settled (List.mem_cons_self (l := rest))
      refine ⟨by rwa [merged], checkAllOf_merged ?_⟩
      rw [merged]
      refine Outcome.forall₂_imp_of_mem settled ?_
      rintro branch - result isResult ⟨-, -, again⟩
      rw [same result isResult] at again ⊢
      exact again
    | objects additive =>
      obtain ⟨presentAgain, again⟩ := additive.again noDefault keyed present
        (settled.imp fun _ _ settled => settled.2)
      exact ⟨presentAgain, checkAllOf_merged again⟩

end Validator

end ApiContract

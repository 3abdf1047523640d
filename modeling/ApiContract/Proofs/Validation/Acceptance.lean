import ApiContract.Proofs.Validation.Keys
import ApiContract.Proofs.Validation.Scalars
import ApiContract.Validation.Engine

/-!
How a check accepts a value.

One step of a check accepts a value as null, or by the shape that its schema resolves to
(`Accepts`). For containers the accepted parts are related to the results one by one.
-/

namespace ApiContract

namespace Validator

/-- What a value other than null is accepted as, by the shape of a resolved schema. -/
inductive Accepts (d : Validator) (inside across : Check) (path : Path) (v : Value)
    (target : Schema) (parent : Parent) : Value → Prop
  | string {rule w} : target.shape = .string rule → rule.coerce v = .ok w →
      Accepts d inside across path v target parent w
  | number {rule x} : target.shape = .number rule → rule.coerce (d.readsText path) v = .ok x →
      Accepts d inside across path v target parent (.number x)
  | boolean {b} : target.shape = .boolean → v.toBool? = some b →
      Accepts d inside across path v target parent (.bool b)
  | array {rule w} : target.shape = .array rule →
      (checkArray inside path v rule).outcome = .ok w →
      Accepts d inside across path v target parent w
  | object {rule w} : target.shape = .object rule →
      (d.checkObject inside path v rule parent).outcome = .ok w →
      Accepts d inside across path v target parent w
  | allOf {branches w} : target.shape = .allOf branches →
      (checkAllOf across path v branches).outcome = .ok w →
      Accepts d inside across path v target parent w
  | oneOf {branches w} : target.shape = .oneOf branches →
      (checkOneOf across path v branches).outcome = .ok w →
      Accepts d inside across path v target parent w
  | any : target.shape = .any → Accepts d inside across path v target parent v
  | unknown {raw} : target.shape = .unknown raw → Accepts d inside across path v target parent v

variable {d : Validator} {check inside across : Check} {path : Path} {v w : Value}
  {parent : Parent} {ps : List Declared} {results : List (Option (String × Value))}

theorem refuse_ne_ok {α : Type} {reason : Reason} {a : α} :
    (Validation.refuse path reason v).outcome ≠ .ok a := by
  simp [Validation.refuse]

theorem Accepts.of_string {target : Schema} {rule : StringRule}
    (shape : target.shape = .string rule)
    (accepts : Accepts d inside across path v target parent w) : rule.Reads v w := by
  cases accepts with
  | string other coerced =>
    obtain rfl := Shape.string.inj (shape.symm.trans other)
    exact StringRule.coerce_eq_ok_iff.mp coerced
  | _ => simp_all

theorem Accepts.of_number {target : Schema} {rule : NumberRule}
    (shape : target.shape = .number rule)
    (accepts : Accepts d inside across path v target parent w) :
    ∃ x, rule.coerce (d.readsText path) v = .ok x ∧ w = .number x := by
  cases accepts with
  | number other coerced =>
    obtain rfl := Shape.number.inj (shape.symm.trans other)
    exact ⟨_, coerced, rfl⟩
  | _ => simp_all

theorem Accepts.of_boolean {target : Schema} (shape : target.shape = .boolean)
    (accepts : Accepts d inside across path v target parent w) :
    ∃ b, v.toBool? = some b ∧ w = .bool b := by
  cases accepts with
  | boolean _ read => exact ⟨_, read, rfl⟩
  | _ => simp_all

theorem Accepts.of_object {target : Schema} {rule : ObjectRule Schema}
    (shape : target.shape = .object rule)
    (accepts : Accepts d inside across path v target parent w) :
    (d.checkObject inside path v rule parent).outcome = .ok w := by
  cases accepts with
  | object other passed =>
    obtain rfl := Shape.object.inj (shape.symm.trans other)
    exact passed
  | _ => simp_all

theorem Accepts.of_oneOf {target : Schema} {branches : List Schema}
    (shape : target.shape = .oneOf branches)
    (accepts : Accepts d inside across path v target parent w) :
    (checkOneOf across path v branches).outcome = .ok w := by
  cases accepts with
  | oneOf other passed =>
    obtain rfl := Shape.oneOf.inj (shape.symm.trans other)
    exact passed
  | _ => simp_all

theorem checkNull_eq_ok {schema target : Schema} :
    (checkNull path schema target).outcome = .ok w ↔
      (schema.nullable || target.nullable) = true ∧
        w = (schema.default? <|> target.default?).getD .null := by
  unfold checkNull
  split
  · next nullable => simp [nullable, eq_comm]
  · next required => simp [required, refuse_ne_ok]

theorem checkString_eq_ok {rule : StringRule} :
    (checkString path v rule).outcome = .ok w ↔ rule.coerce v = .ok w := by
  unfold checkString
  cases rule.coerce v <;> simp [refuse_ne_ok]

theorem checkNumber_eq_ok {rule : NumberRule} :
    (d.checkNumber path v rule).outcome = .ok w ↔
      ∃ x, rule.coerce (d.readsText path) v = .ok x ∧ w = .number x := by
  unfold checkNumber
  cases rule.coerce (d.readsText path) v with
  | ok x => simp [eq_comm]
  | error reason => simp [refuse_ne_ok]

theorem checkBoolean_eq_ok :
    (checkBoolean path v).outcome = .ok w ↔ ∃ b, v.toBool? = some b ∧ w = .bool b := by
  unfold checkBoolean
  cases v.toBool? with
  | some b => simp [eq_comm]
  | none => simp [refuse_ne_ok]

theorem checkArray_eq_ok {rule : ArrayRule Schema} :
    (checkArray check path v rule).outcome = .ok w ↔
      ∃ items results, v = .array items ∧ countViolation? rule items.length = none ∧
        List.Forall₂ (fun (e : Value × Nat) result =>
          (check (path.child (.index e.2)) e.1 rule.items .array).outcome = .ok result)
          items.zipIdx results ∧
        w = .array results := by
  unfold checkArray
  cases v with
  | array items =>
    cases violation : countViolation? rule items.length with
    | some reason => simp [violation, refuse_ne_ok]
    | none =>
      simp only [violation, Report.outcome_bind_eq_ok, Report.outcome_mapM_eq_ok,
        Report.outcome_pure, Except.ok.injEq, Value.array.injEq]
      constructor
      · rintro ⟨results, accepted, rfl⟩
        exact ⟨items, results, rfl, violation, accepted, rfl⟩
      · rintro ⟨_, results, rfl, -, accepted, rfl⟩
        exact ⟨results, accepted, rfl⟩
  | _ => simp [refuse_ne_ok]

theorem forall₂_zipIdx_getElem? {R : Value × Nat → Value → Prop} {items results : List Value}
    {start i : Nat} {item result : Value}
    (related : List.Forall₂ R (items.zipIdx start) results) (atItem : items[i]? = some item)
    (atResult : results[i]? = some result) : R (item, start + i) result := by
  induction items generalizing start results i with
  | nil => simp at atItem
  | cons first items ih =>
    obtain ⟨other, results, head, rest, rfl⟩ := List.forall₂_cons_left_iff.mp related
    cases i with
    | zero =>
      obtain rfl : first = item := by simpa using atItem
      obtain rfl : other = result := by simpa using atResult
      exact head
    | succ i =>
      have later := ih rest (i := i) (by simpa using atItem) (by simpa using atResult)
      rwa [Nat.add_right_comm] at later

theorem checkProperty_eq_ok_of_some {required : List String} {members : Entries Value}
    {p : Declared} {result : Option (String × Value)} (found : members.get? p.name = some v) :
    (checkProperty check path required members p).outcome = .ok result ↔
      ∃ w, (check (path.child (.key p.name)) v p.node .object).outcome = .ok w ∧
        result = some (p.name, w) := by
  unfold checkProperty
  simp only [found, Report.outcome_bind_eq_ok, Report.outcome_pure, Except.ok.injEq]
  exact exists_congr fun w => and_congr_right fun _ => eq_comm

theorem checkProperty_eq_ok_of_none {required : List String} {members : Entries Value}
    {p : Declared} {result : Option (String × Value)} (absent : members.get? p.name = none) :
    (checkProperty check path required members p).outcome = .ok result ↔
      (p.name ∈ required ∧ p.target.isAny = true ∧ result = none) ∨
        (p.name ∉ required ∧ result = p.default?.map (p.name, ·)) := by
  unfold checkProperty
  by_cases isRequired : p.name ∈ required
  · by_cases isAny : p.target.isAny = true
    · simp [absent, isRequired, isAny, eq_comm (a := result)]
    · simp [absent, isRequired, isAny]
  · simp [absent, isRequired, eq_comm (a := result)]

theorem name_of_checkProperty_eq_ok {required : List String} {members : Entries Value}
    {p : Declared} {result : Option (String × Value)}
    (accepted : (checkProperty check path required members p).outcome = .ok result) :
    ∀ e, result = some e → e.1 = p.name := by
  rintro e rfl
  cases found : members.get? p.name with
  | some v =>
    obtain ⟨w, -, same⟩ := (checkProperty_eq_ok_of_some found).mp accepted
    rw [Option.some.inj same]
  | none =>
    rcases (checkProperty_eq_ok_of_none found).mp accepted with ⟨-, -, none⟩ | ⟨-, same⟩
    · simp at none
    · obtain ⟨w, -, rfl⟩ := Option.map_eq_some_iff.mp same.symm
      rfl

def Named (ps : List Declared) (results : List (Option (String × Value))) : Prop :=
  List.Forall₂ (fun p result => ∀ e, result = some e → e.1 = p.name) ps results

theorem Named.exists_of_mem (named : Named ps results) {e : String × Value}
    (membership : e ∈ results.filterMap id) : ∃ p ∈ ps, e.1 = p.name := by
  obtain ⟨result, isResult, rfl⟩ := List.mem_filterMap.mp membership
  obtain ⟨p, isDeclared, name⟩ := Outcome.exists_mem_left_of_forall₂ named isResult
  exact ⟨p, isDeclared, name e rfl⟩

theorem keys_of_forall₂ {entries others : List (String × Value)}
    (related : List.Forall₂ (fun e other => other.1 = e.1) entries others) :
    others.map Prod.fst = entries.map Prod.fst := by
  induction related with
  | nil => rfl
  | cons first _ ih => simp [first, ih]

theorem checkUndeclared_of_check {rule : ObjectRule Schema} {node : Schema}
    {undeclared : List (String × Value)}
    (fate : rule.additional.fate d.switches parent (undeclared.map Prod.fst) = .check node) :
    d.checkUndeclared check path v parent rule undeclared =
      undeclared.mapM (Report.keyed fun key w => check (path.child (.key key)) w node .object) := by
  unfold checkUndeclared
  simp only [fate]
  rfl

theorem checkUndeclared_eq_ok_of_check {rule : ObjectRule Schema} {node : Schema}
    {undeclared extra : List (String × Value)}
    (fate : rule.additional.fate d.switches parent (undeclared.map Prod.fst) = .check node) :
    (d.checkUndeclared check path v parent rule undeclared).outcome = .ok extra ↔
      List.Forall₂ (fun e result => result.1 = e.1 ∧
        (check (path.child (.key e.1)) e.2 node .object).outcome = .ok result.2)
        undeclared extra := by
  rw [checkUndeclared_of_check fate]
  simp only [Report.outcome_mapM_eq_ok, Report.outcome_keyed_eq_ok]

theorem checkObject_eq_ok {rule : ObjectRule Schema} :
    (d.checkObject check path v rule parent).outcome = .ok w ↔
      ∃ members ps results extra, v = .object members ∧
        declared d.document rule.properties = .ok ps ∧
        List.Forall₂ (fun p result =>
          (checkProperty check path rule.required members p).outcome = .ok result) ps results ∧
        (d.checkUndeclared check path v parent rule
          (members.filter fun e => ps.all fun p => p.name ≠ e.1)).outcome = .ok extra ∧
        w = .object (results.filterMap id ++ extra) := by
  unfold checkObject
  cases v with
  | object members =>
    simp only [Report.outcome_bind_eq_ok, Report.outcome_mapM_eq_ok, Report.outcome_ofExcept,
      Outcome.mapError_eq_ok, Report.outcome_pure, Except.ok.injEq, Value.object.injEq]
    constructor
    · rintro ⟨ps, resolved, results, accepted, extra, undeclared, rfl⟩
      exact ⟨members, ps, results, extra, rfl, resolved, accepted, undeclared, rfl⟩
    · rintro ⟨_, ps, results, extra, rfl, resolved, accepted, undeclared, rfl⟩
      exact ⟨ps, resolved, results, accepted, extra, undeclared, rfl⟩
  | _ => simp [refuse_ne_ok]

/-- Where an entry of an accepted object comes from. -/
inductive Entry (d : Validator) (check : Check) (path : Path) (rule : ObjectRule Schema)
    (members : List (String × Value)) (ps : List Declared) : String → Value → Prop
  | given {p v w} : p ∈ ps → Entries.get? members p.name = some v →
      (check (path.child (.key p.name)) v p.node .object).outcome = .ok w →
      Entry d check path rule members ps p.name w
  | default {p w} : p ∈ ps → Entries.get? members p.name = none → p.default? = some w →
      Entry d check path rule members ps p.name w
  | copied {key w} : (∀ p ∈ ps, p.name ≠ key) → rule.additional = .allowed true →
      d.switches.rejectUndeclared = true → (key, w) ∈ members →
      Entry d check path rule members ps key w
  | checked {key node v w} : (∀ p ∈ ps, p.name ≠ key) → rule.additional = .schema node →
      (key, v) ∈ members → (check (path.child (.key key)) v node .object).outcome = .ok w →
      Entry d check path rule members ps key w

theorem entry_of_checkProperty_eq_ok {rule : ObjectRule Schema} {members : Entries Value}
    {p : Declared} {e : String × Value} (isDeclared : p ∈ ps)
    (accepted : (checkProperty check path rule.required members p).outcome = .ok (some e)) :
    Entry d check path rule members ps e.1 e.2 := by
  cases found : members.get? p.name with
  | some v =>
    obtain ⟨w, passed, same⟩ := (checkProperty_eq_ok_of_some found).mp accepted
    obtain rfl := Option.some.inj same
    exact .given isDeclared found passed
  | none =>
    rcases (checkProperty_eq_ok_of_none found).mp accepted with ⟨-, -, none⟩ | ⟨-, same⟩
    · simp at none
    · obtain ⟨w, filled, rfl⟩ := Option.map_eq_some_iff.mp same.symm
      exact .default isDeclared found filled

theorem entry_of_checkUndeclared_eq_ok {rule : ObjectRule Schema} {members : Entries Value}
    {undeclared extra : List (String × Value)} {e : String × Value}
    (apart : ∀ e ∈ undeclared, e ∈ members ∧ ∀ p ∈ ps, p.name ≠ e.1)
    (accepted : (d.checkUndeclared check path v parent rule undeclared).outcome = .ok extra)
    (isExtra : e ∈ extra) : Entry d check path rule members ps e.1 e.2 := by
  cases fate : rule.additional.fate d.switches parent (undeclared.map Prod.fst) with
  | reject =>
    simp only [checkUndeclared, fate] at accepted
    exact absurd accepted refuse_ne_ok
  | copy =>
    obtain rfl : undeclared = extra := by simpa [checkUndeclared, fate] using accepted
    obtain ⟨allowed, rejects⟩ := Additional.allowed_of_fate_eq_copy fate
    obtain ⟨isMember, other⟩ := apart e isExtra
    exact .copied other allowed rejects isMember
  | check node =>
    obtain ⟨given, isUndeclared, same, passed⟩ := Outcome.exists_mem_left_of_forall₂
      ((checkUndeclared_eq_ok_of_check fate).mp accepted) isExtra
    obtain ⟨isMember, other⟩ := apart given isUndeclared
    rw [same]
    exact .checked other (Additional.eq_schema_of_fate_eq_check fate) isMember passed
  | warn =>
    obtain rfl : [] = extra := by simpa [checkUndeclared, fate] using accepted
    simp at isExtra
  | drop =>
    obtain rfl : [] = extra := by simpa [checkUndeclared, fate] using accepted
    simp at isExtra

/-- What is known of an accepted object: where its entries come from, and that it has the required
properties. -/
theorem entries_of_checkObject_eq_ok {rule : ObjectRule Schema}
    (accepted : (d.checkObject check path v rule parent).outcome = .ok w) :
    ∃ members ps results, v = .object members ∧ w = .object results ∧
      declared d.document rule.properties = .ok ps ∧
      (∀ e ∈ results, Entry d check path rule members ps e.1 e.2) ∧
      ∀ p ∈ ps, p.name ∈ rule.required → p.target.isAny = false →
        p.name ∈ Entries.keys results := by
  obtain ⟨members, ps, results, extra, rfl, resolved, properties, undeclared, rfl⟩ :=
    checkObject_eq_ok.mp accepted
  refine ⟨members, ps, _, rfl, rfl, resolved, ?_, ?_⟩
  · intro e membership
    rcases List.mem_append.mp membership with isResult | isExtra
    · obtain ⟨result, inResults, rfl⟩ := List.mem_filterMap.mp isResult
      obtain ⟨p, isDeclared, passed⟩ := Outcome.exists_mem_left_of_forall₂ properties inResults
      exact entry_of_checkProperty_eq_ok isDeclared passed
    · exact entry_of_checkUndeclared_eq_ok (by simp) undeclared isExtra
  · intro p isDeclared isRequired notAny
    obtain ⟨result, inResults, passed⟩ :=
      Outcome.exists_mem_right_of_forall₂ properties isDeclared
    suffices shown : ∃ w, result = some (p.name, w) by
      obtain ⟨w, rfl⟩ := shown
      exact List.mem_map.mpr ⟨(p.name, w), by simp [inResults], rfl⟩
    cases found : Entries.get? members p.name with
    | some v =>
      obtain ⟨w, -, same⟩ := (checkProperty_eq_ok_of_some found).mp passed
      exact ⟨w, same⟩
    | none =>
      rcases (checkProperty_eq_ok_of_none found).mp passed with ⟨-, isAny, -⟩ | ⟨optional, -⟩
      · simp [notAny] at isAny
      · exact absurd isRequired optional

theorem checkAllOf_eq_ok {branches : List Schema} :
    (checkAllOf check path v branches).outcome = .ok w ↔
      ∃ results, List.Forall₂ (fun branch result =>
          (check path v branch .allOf).outcome = .ok result) branches results ∧
        w = match results with
          | [] => v
          | first :: rest => rest.foldl merge first := by
  unfold checkAllOf
  rw [Report.outcome_bind_eq_ok]
  refine exists_congr fun results => ?_
  rw [Report.outcome_mapM_eq_ok]
  cases results <;> simp [eq_comm]

theorem tryBranch_eq_ok {node : Schema} {index : Nat} {result : Option (Nat × Value)} :
    (tryBranch check path v node index).outcome = .ok result ↔
      (∃ w, (check path v node .oneOf).outcome = .ok w ∧ result = some (index, w)) ∨
        ∃ failure, (check path v node .oneOf).outcome = .error (.invalid failure) ∧
          result = none := by
  unfold tryBranch
  simp only [Report.outcome_bind_eq_ok, Report.outcome_attempt, Except.ok.injEq, exists_eq_left']
  cases tried : (check path v node .oneOf).outcome with
  | ok w => simp [eq_comm]
  | error cause =>
    cases cause with
    | invalid failure => simp [Except.map, eq_comm]
    | schema cause => simp
    | endless => simp

theorem checkOneOf_eq_ok {branches : List Schema} :
    (checkOneOf check path v branches).outcome = .ok w ↔
      ∃ results, List.Forall₂ (fun (e : Schema × Nat) result =>
          (tryBranch check path v e.1 e.2).outcome = .ok result) branches.zipIdx results ∧
        ∃ index, richest (results.filterMap id) = some (index, w) := by
  unfold checkOneOf
  rw [Report.outcome_bind_eq_ok]
  refine exists_congr fun results => ?_
  rw [Report.outcome_mapM_eq_ok]
  refine and_congr_right fun _ => ?_
  cases chosen : richest (results.filterMap id) with
  | none => simp [refuse_ne_ok]
  | some best =>
    obtain ⟨index, result⟩ := best
    simp [Except.map]

theorem mem_of_richest_eq_some {results : List (Nat × Value)} {best : Nat × Value}
    (chosen : richest results = some best) : best ∈ results := by
  cases results with
  | nil => simp [richest] at chosen
  | cons first rest =>
    obtain rfl := Option.some.inj chosen
    clear chosen
    induction rest generalizing first with
    | nil => exact List.mem_cons_self
    | cons next rest ih =>
      rw [List.foldl_cons]
      split
      · exact List.mem_cons_of_mem first (ih next)
      · rcases List.mem_cons.mp (ih first) with isFirst | later
        · rw [isFirst]
          exact List.mem_cons_self
        · exact List.mem_cons_of_mem first (List.mem_cons_of_mem next later)

/-- A union accepts what one of its branches accepts. -/
theorem exists_branch_of_checkOneOf_eq_ok {branches : List Schema}
    (accepted : (checkOneOf check path v branches).outcome = .ok w) :
    ∃ branch ∈ branches, (check path v branch .oneOf).outcome = .ok w := by
  obtain ⟨results, tried, index, chosen⟩ := checkOneOf_eq_ok.mp accepted
  obtain ⟨result, inResults, same⟩ := List.mem_filterMap.mp (mem_of_richest_eq_some chosen)
  obtain rfl : result = some (index, w) := same
  obtain ⟨⟨branch, i⟩, isBranch, passed⟩ := Outcome.exists_mem_left_of_forall₂ tried inResults
  refine ⟨branch, List.fst_mem_of_mem_zipIdx isBranch, ?_⟩
  rcases tryBranch_eq_ok.mp passed with ⟨other, accepted, same⟩ | ⟨failure, -, none⟩
  · obtain ⟨-, rfl⟩ := Prod.mk.inj (Option.some.inj same)
    exact accepted
  · simp at none

theorem step_eq_ok {schema : Schema} :
    (d.step inside across path v schema parent).outcome = .ok w ↔
      ∃ target, d.document.resolve schema = .ok target ∧
        ((v.isNull = true ∧ (checkNull path schema target).outcome = .ok w) ∨
          (v.isNull = false ∧ Accepts d inside across path v target parent w)) := by
  unfold step
  rw [Report.outcome_bind_eq_ok]
  refine exists_congr fun target => ?_
  rw [Report.outcome_ofExcept, Outcome.mapError_eq_ok]
  refine and_congr_right fun _ => ?_
  cases isNull : v.isNull with
  | true => simp
  | false =>
    simp only [Bool.false_eq_true, if_false, false_and, true_and, false_or]
    constructor
    · intro accepted
      cases shape : target.shape with
      | string rule => exact .string shape (checkString_eq_ok.mp (by simpa [shape] using accepted))
      | number rule =>
        obtain ⟨x, coerced, rfl⟩ := checkNumber_eq_ok.mp (by simpa [shape] using accepted)
        exact .number shape coerced
      | boolean =>
        obtain ⟨b, coerced, rfl⟩ := checkBoolean_eq_ok.mp (by simpa [shape] using accepted)
        exact .boolean shape coerced
      | array rule => exact .array shape (by simpa [shape] using accepted)
      | object rule => exact .object shape (by simpa [shape] using accepted)
      | allOf branches => exact .allOf shape (by simpa [shape] using accepted)
      | oneOf branches => exact .oneOf shape (by simpa [shape] using accepted)
      | any =>
        obtain rfl : v = w := by simpa [shape] using accepted
        exact .any shape
      | ref reference => simp [shape] at accepted
      | unknown raw =>
        obtain rfl : v = w := by simpa [shape, Except.map] using accepted
        exact .unknown shape
    · intro accepts
      cases accepts with
      | string shape coerced => simpa [shape] using checkString_eq_ok.mpr coerced
      | number shape coerced => simpa [shape] using checkNumber_eq_ok.mpr ⟨_, coerced, rfl⟩
      | boolean shape coerced => simpa [shape] using checkBoolean_eq_ok.mpr ⟨_, coerced, rfl⟩
      | array shape accepted => simpa [shape] using accepted
      | object shape accepted => simpa [shape] using accepted
      | allOf shape accepted => simpa [shape] using accepted
      | oneOf shape accepted => simpa [shape] using accepted
      | any shape => simp [shape]
      | unknown shape => simp [shape, Except.map]

end Validator

end ApiContract

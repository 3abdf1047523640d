import ApiContract.Proofs.Document.References
import ApiContract.Proofs.Validation.Keys
import ApiContract.Proofs.Value.Place
import ApiContract.Validation.Engine

/-!
Where the error of a check comes from.

One step of a check has an error of its own, or passes on the error of a check inside the value or
across the branches of its schema (`Origin`). What holds of every error is shown by going through
the origins once; `checkWithin_induction` lifts it to checks of any depth.
-/

namespace ApiContract.Validator

/-- The possible origins of an error in a step of a check. -/
inductive Origin (d : Validator) (inside across : Check) (path : Path) (v : Value) (s : Schema) :
    CheckError → Prop
  /-- The schema, or a property that it declares, does not resolve. -/
  | unresolved {cause} : d.document.resolve s = .error cause →
      Origin d inside across path v s (.schema cause)
  | unresolvedProperty {target node cause} : d.document.resolve s = .ok target →
      node ∈ target.children →
      d.document.resolve node = .error cause → Origin d inside across path v s (.schema cause)
  | notConcrete {target reference} : d.document.resolve s = .ok target →
      target.shape = .ref reference →
      Origin d inside across path v s (.schema (.notConcrete reference))
  /-- The value itself is turned down and echoed. -/
  | refused {reason} : Origin d inside across path v s (.invalid (.echoing path reason v))
  | missing {members property} : v = .object members → Entries.get? members property = none →
      Origin d inside across path v s
        (.invalid { path := path.child (.key property), reason := .propertyMissing property })
  | inner {target segment w node parent e} : d.document.resolve s = .ok target →
      v.Member segment w → node ∈ target.children →
      (inside (path.child segment) w node parent).outcome = .error e →
      Origin d inside across path v s e
  | branch {node parent e} : d.document.Branch s node →
      (across path v node parent).outcome = .error e → Origin d inside across path v s e

variable {d : Validator} {check inside across : Check} {path : Path} {v : Value} {e : CheckError}

theorem refused_of_checkNull_error {schema target : Schema} (isNull : v.isNull = true)
    (failed : (checkNull path schema target).outcome = .error e) :
    ∃ reason, e = .invalid (.echoing path reason v) := by
  obtain rfl := Value.eq_null_of_isNull isNull
  unfold checkNull at failed
  split at failed
  · simp at failed
  · exact ⟨.notNullable, by simpa [Validation.refuse, eq_comm] using failed⟩

theorem refused_of_checkString_error {rule : StringRule}
    (failed : (checkString path v rule).outcome = .error e) :
    ∃ reason, e = .invalid (.echoing path reason v) := by
  unfold checkString at failed
  cases coerced : rule.coerce v with
  | ok w => simp [coerced] at failed
  | error reason => exact ⟨reason, by simpa [coerced, Validation.refuse, eq_comm] using failed⟩

theorem refused_of_checkNumber_error {rule : NumberRule}
    (failed : (d.checkNumber path v rule).outcome = .error e) :
    ∃ reason, e = .invalid (.echoing path reason v) := by
  unfold checkNumber at failed
  cases coerced : rule.coerce (d.readsText path) v with
  | ok x => simp [coerced] at failed
  | error reason => exact ⟨reason, by simpa [coerced, Validation.refuse, eq_comm] using failed⟩

theorem refused_of_checkBoolean_error (failed : (checkBoolean path v).outcome = .error e) :
    ∃ reason, e = .invalid (.echoing path reason v) := by
  unfold checkBoolean at failed
  cases coerced : v.toBool? with
  | some b => simp [coerced] at failed
  | none => exact ⟨.notBoolean, by simpa [coerced, Validation.refuse, eq_comm] using failed⟩

theorem checkArray_error {rule : ArrayRule Schema}
    (failed : (checkArray check path v rule).outcome = .error e) :
    (∃ reason, e = .invalid (.echoing path reason v)) ∨
      ∃ segment w, v.Member segment w ∧
        (check (path.child segment) w rule.items .array).outcome = .error e := by
  unfold checkArray at failed
  cases v with
  | array items =>
    cases violation : countViolation? rule items.length with
    | some reason =>
      exact .inl ⟨reason, by simpa [violation, Validation.refuse, eq_comm] using failed⟩
    | none =>
      simp only [violation, Report.outcome_bind_eq_error, Report.outcome_mapM_eq_error,
        Report.outcome_pure, reduceCtorEq, and_false, exists_false, or_false] at failed
      obtain ⟨before, ⟨item, i⟩, after, split, -, failed⟩ := failed
      have found : (item, i) ∈ items.zipIdx := by simp [split]
      exact .inr ⟨.index i, item, .item (List.mk_mem_zipIdx_iff_getElem?.mp found), failed⟩
  | _ => exact .inl ⟨.notArray, by simpa [Validation.refuse, eq_comm] using failed⟩

theorem checkProperty_error {required : List String} {members : Entries Value} {p : Declared}
    (failed : (checkProperty check path required members p).outcome = .error e) :
    (members.get? p.name = none ∧
        e = .invalid { path := path.child (.key p.name), reason := .propertyMissing p.name }) ∨
      ∃ w, (p.name, w) ∈ members ∧
        (check (path.child (.key p.name)) w p.node .object).outcome = .error e := by
  unfold checkProperty at failed
  cases found : members.get? p.name with
  | some w =>
    simp only [found, Report.outcome_bind_eq_error, Report.outcome_pure, reduceCtorEq, and_false,
      exists_false, or_false] at failed
    exact .inr ⟨w, Entries.mem_of_get?_eq_some found, failed⟩
  | none =>
    simp only [found] at failed
    split at failed
    · split at failed
      · simp at failed
      · exact .inl ⟨rfl, by simpa [eq_comm] using failed⟩
    · simp at failed

theorem checkUndeclared_error {parent : Parent} {rule : ObjectRule Schema}
    {undeclared : List (String × Value)}
    (failed : (d.checkUndeclared check path v parent rule undeclared).outcome = .error e) :
    (∃ reason, e = .invalid (.echoing path reason v)) ∨
      ∃ key w node, (key, w) ∈ undeclared ∧ node ∈ rule.additional.nodes ∧
        (check (path.child (.key key)) w node .object).outcome = .error e := by
  unfold checkUndeclared at failed
  cases fate : rule.additional.fate d.switches parent (undeclared.map Prod.fst) with
  | reject =>
    simp only [fate] at failed
    exact .inl ⟨_, by simpa [Validation.refuse, eq_comm] using failed⟩
  | check node =>
    simp only [fate, Report.outcome_mapM_eq_error, Report.outcome_bind_eq_error,
      Report.outcome_pure, reduceCtorEq, and_false, exists_false, or_false] at failed
    obtain ⟨before, ⟨key, w⟩, after, split, -, failed⟩ := failed
    refine .inr ⟨key, w, node, by simp [split], ?_, failed⟩
    exact Additional.mem_nodes_of_fate_eq_check fate
  | warn => simp [fate] at failed
  | copy => simp [fate] at failed
  | drop => simp [fate] at failed

/-- The object rule itself is at fault, the object is, or something in it is. -/
theorem checkObject_error {parent : Parent} {rule : ObjectRule Schema}
    (failed : (d.checkObject check path v rule parent).outcome = .error e) :
    (∃ reason, e = .invalid (.echoing path reason v)) ∨
      (∃ cause, e = .schema cause ∧ ∃ entry ∈ rule.properties,
        d.document.resolve entry.2 = .error cause) ∨
      (∃ members property, v = .object members ∧ Entries.get? members property = none ∧
        e = .invalid { path := path.child (.key property), reason := .propertyMissing property }) ∨
      ∃ segment w node, v.Member segment w ∧ node ∈ (Shape.object rule).nodes ∧
        (check (path.child segment) w node .object).outcome = .error e := by
  unfold checkObject at failed
  cases v with
  | object members =>
    simp only [Report.outcome_bind_eq_error, Report.outcome_ofExcept, Report.outcome_pure,
      Outcome.mapError_eq_ok, Outcome.mapError_eq_error, reduceCtorEq, and_false, exists_false,
      or_false] at failed
    rcases failed with ⟨cause, found, rfl⟩ | ⟨ps, resolved, failed⟩
    · exact .inr (.inl ⟨cause, rfl, exists_unresolved_of_declared_eq_error found⟩)
    · rcases failed with failed | ⟨entries, -, failed⟩
      · obtain ⟨before, p, after, split, -, failed⟩ := Report.outcome_mapM_eq_error.mp failed
        rcases checkProperty_error failed with ⟨absent, rfl⟩ | ⟨w, membership, failed⟩
        · exact .inr (.inr (.inl ⟨members, p.name, rfl, absent, rfl⟩))
        · have isDeclared := (mem_properties_of_mem_declared resolved (p := p) (by simp [split])).1
          refine .inr (.inr (.inr ⟨.key p.name, w, p.node, .entry membership, ?_, failed⟩))
          exact ObjectRule.mem_nodes_of_property isDeclared
      · rcases checkUndeclared_error failed with refused | ⟨key, w, node, extra, inRule, failed⟩
        · exact .inl refused
        · refine .inr (.inr (.inr ⟨.key key, w, node, ?_, List.mem_append_right _ inRule, failed⟩))
          exact .entry (List.mem_filter.mp extra).1
  | _ => exact .inl ⟨.notObject, by simpa [Validation.refuse, eq_comm] using failed⟩

theorem checkAllOf_error {branches : List Schema}
    (failed : (checkAllOf check path v branches).outcome = .error e) :
    ∃ node ∈ branches, (check path v node .allOf).outcome = .error e := by
  unfold checkAllOf at failed
  rcases Report.outcome_bind_eq_error.mp failed with failed | ⟨results, -, failed⟩
  · obtain ⟨before, node, after, rfl, -, failed⟩ := Report.outcome_mapM_eq_error.mp failed
    exact ⟨node, by simp, failed⟩
  · cases results <;> simp at failed

theorem tryBranch_error {node : Schema} {index : Nat}
    (failed : (tryBranch check path v node index).outcome = .error e) :
    (check path v node .oneOf).outcome = .error e := by
  unfold tryBranch at failed
  simp only [Report.outcome_bind_eq_error, Report.outcome_attempt, reduceCtorEq, false_or,
    Except.ok.injEq, exists_eq_left'] at failed
  cases tried : (check path v node .oneOf).outcome with
  | ok w => simp [tried] at failed
  | error cause =>
    cases cause with
    | invalid failure => simp [tried, Except.map] at failed
    | schema cause => simpa [tried] using failed
    | endless => simpa [tried] using failed

theorem checkOneOf_error {branches : List Schema}
    (failed : (checkOneOf check path v branches).outcome = .error e) :
    (∃ reason, e = .invalid (.echoing path reason v)) ∨
      ∃ node ∈ branches, (check path v node .oneOf).outcome = .error e := by
  unfold checkOneOf at failed
  rcases Report.outcome_bind_eq_error.mp failed with failed | ⟨results, -, failed⟩
  · obtain ⟨before, ⟨node, index⟩, after, split, -, failed⟩ :=
      Report.outcome_mapM_eq_error.mp failed
    have isBranch : (node, index) ∈ branches.zipIdx := by simp [split]
    exact .inr ⟨node, List.fst_mem_of_mem_zipIdx isBranch, tryBranch_error failed⟩
  · cases chosen : richest (results.filterMap id) with
    | some best =>
      rw [chosen] at failed
      simp [Except.map] at failed
    | none =>
      rw [chosen] at failed
      exact .inl ⟨.noBranch, by simpa [Validation.refuse, eq_comm] using failed⟩

theorem origin_of_step_error {s : Schema} {parent : Parent}
    (failed : (d.step inside across path v s parent).outcome = .error e) :
    Origin d inside across path v s e := by
  unfold step at failed
  rcases Report.outcome_bind_eq_error.mp failed with unresolved | ⟨target, resolved, failed⟩
  · rw [Report.outcome_ofExcept, Outcome.mapError_eq_error] at unresolved
    obtain ⟨cause, found, rfl⟩ := unresolved
    exact .unresolved found
  rw [Report.outcome_ofExcept, Outcome.mapError_eq_ok] at resolved
  have echoed (refused : ∃ reason, e = .invalid (.echoing path reason v)) :
      Origin d inside across path v s e := by
    obtain ⟨reason, rfl⟩ := refused
    exact .refused
  by_cases isNull : v.isNull = true
  · rw [if_pos isNull] at failed
    exact echoed (refused_of_checkNull_error isNull failed)
  rw [if_neg isNull] at failed
  cases shape : target.shape with
  | string rule => exact echoed (refused_of_checkString_error (by simpa [shape] using failed))
  | number rule => exact echoed (refused_of_checkNumber_error (by simpa [shape] using failed))
  | boolean => exact echoed (refused_of_checkBoolean_error (by simpa [shape] using failed))
  | array rule =>
    rcases checkArray_error (by simpa [shape] using failed) with refused | ⟨_, _, member, failed⟩
    · exact echoed refused
    · exact .inner resolved member (Schema.mem_children_of_nested (.item shape)) failed
  | object rule =>
    rcases checkObject_error (by simpa [shape] using failed) with
      refused | ⟨cause, rfl, ⟨name, node⟩, isDeclared, unresolved⟩ |
        ⟨members, property, rfl, absent, rfl⟩ | ⟨segment, w, node, member, inRule, failed⟩
    · exact echoed refused
    · exact .unresolvedProperty resolved
        (Schema.mem_children_of_nested (.property shape isDeclared)) unresolved
    · exact .missing rfl absent
    · exact .inner resolved member (by simpa [Schema.children, shape] using inRule) failed
  | allOf branches =>
    obtain ⟨node, isBranch, failed⟩ := checkAllOf_error (by simpa [shape] using failed)
    exact .branch (.intersected ⟨target, resolved, shape⟩ isBranch) failed
  | oneOf branches =>
    rcases checkOneOf_error (by simpa [shape] using failed) with refused | ⟨node, isBranch, failed⟩
    · exact echoed refused
    · exact .branch (.alternative ⟨target, resolved, shape⟩ isBranch) failed
  | any => simp [shape] at failed
  | ref reference =>
    obtain rfl : e = .schema (.notConcrete reference) := by
      simpa [shape, eq_comm] using failed
    exact .notConcrete resolved shape
  | unknown raw => simp [shape, Except.map] at failed

/-- What relates the check that gives up to itself, and what two steps keep, relates two checks of
the same bounds. -/
theorem checkWithin_induction₂ {R : Check → Check → Prop} (d d' : Validator)
    (base : R giveUp giveUp)
    (step : ∀ inside inside' across across', R inside inside' → R across across' →
      R (d.step inside across) (d'.step inside' across'))
    (links levels : Nat) : R (d.checkWithin links levels) (d'.checkWithin links levels) := by
  induction levels with
  | zero => exact base
  | succ levels inside =>
    have chained (bound : Nat) :
        R (d.chain (d.checkWithin links levels) bound)
          (d'.chain (d'.checkWithin links levels) bound) := by
      induction bound with
      | zero => exact base
      | succ bound across => exact step _ _ _ _ inside across
    exact chained links

/-- What the check that gives up has, and a step keeps, every check of bounded depth has. -/
theorem checkWithin_induction {P : Check → Prop} (d : Validator) (base : P giveUp)
    (step : ∀ inside across, P inside → P across → P (d.step inside across))
    (links levels : Nat) : P (d.checkWithin links levels) :=
  checkWithin_induction₂ (R := fun check _ => P check) d d base
    (fun inside _ across _ => step inside across) links levels

end ApiContract.Validator

import ApiContract.Proofs.Validation.Branches

/-!
Verdicts of checks.

A check accepts a value or refuses it; a fault of the schema decides neither. The verdict of a
composite follows from the verdicts of its parts: an intersection is refused at its first branch
that is, a union needs a verdict of every branch, and an object is refused for its declared
properties before it is for excess ones.
-/

namespace ApiContract

namespace Report

variable {α β : Type} {x y : Report CheckError α}

def IsAccepted (x : Report CheckError α) : Prop := ∃ a, x.outcome = .ok a

def IsRefused (x : Report CheckError α) : Prop := ∃ failure, x.outcome = .error (.invalid failure)

def IsDecided (x : Report CheckError α) : Prop := x.IsAccepted ∨ x.IsRefused

theorem IsAccepted.not_isRefused (accepted : x.IsAccepted) : ¬x.IsRefused := by
  rintro ⟨failure, refused⟩
  obtain ⟨a, accepted⟩ := accepted
  simp [accepted] at refused

theorem IsDecided.ends (decided : x.IsDecided) : x.Ends := by
  rcases decided with ⟨a, accepted⟩ | ⟨failure, refused⟩
  · simp [Ends, accepted]
  · simp [Ends, refused]

theorem Ends.isDecided (ends : x.Ends) (faultless : ∀ cause, x.outcome ≠ .error (.schema cause)) :
    x.IsDecided := by
  cases outcome : x.outcome with
  | ok a => exact .inl ⟨a, outcome⟩
  | error e =>
    cases e with
    | invalid failure => exact .inr ⟨failure, outcome⟩
    | schema cause => exact absurd outcome (faultless cause)
    | endless => exact absurd outcome ends

theorem isAccepted_bind_iff {f : α → Report CheckError β} :
    (x >>= f).IsAccepted ↔ ∃ a, x.outcome = .ok a ∧ (f a).IsAccepted := by
  unfold IsAccepted
  simp only [outcome_bind_eq_ok]
  constructor
  · rintro ⟨b, a, first, rest⟩
    exact ⟨a, first, b, rest⟩
  · rintro ⟨a, first, b, rest⟩
    exact ⟨b, a, first, rest⟩

theorem IsAccepted.of_bind {f : α → Report CheckError β} (accepted : (x >>= f).IsAccepted) :
    x.IsAccepted := by
  obtain ⟨a, first, -⟩ := isAccepted_bind_iff.mp accepted
  exact ⟨a, first⟩

theorem isRefused_bind_iff {f : α → Report CheckError β} :
    (x >>= f).IsRefused ↔ x.IsRefused ∨ ∃ a, x.outcome = .ok a ∧ (f a).IsRefused := by
  unfold IsRefused
  simp only [outcome_bind_eq_error]
  constructor
  · rintro ⟨failure, first | ⟨a, first, rest⟩⟩
    · exact .inl ⟨failure, first⟩
    · exact .inr ⟨a, first, failure, rest⟩
  · rintro (⟨failure, first⟩ | ⟨a, first, failure, rest⟩)
    · exact ⟨failure, .inl first⟩
    · exact ⟨failure, .inr ⟨a, first, rest⟩⟩

theorem isAccepted_mapM_iff {f : α → Report CheckError β} {inputs : List α} :
    (inputs.mapM f).IsAccepted ↔ ∀ a ∈ inputs, (f a).IsAccepted := by
  unfold IsAccepted
  simp only [outcome_mapM_eq_ok]
  constructor
  · rintro ⟨outputs, related⟩ a isInput
    obtain ⟨b, -, made⟩ := Outcome.exists_mem_right_of_forall₂ related isInput
    exact ⟨b, made⟩
  · exact Outcome.exists_forall₂

theorem isRefused_mapM_iff {f : α → Report CheckError β} {inputs : List α} :
    (inputs.mapM f).IsRefused ↔
      ∃ before a after, inputs = before ++ a :: after ∧ (∀ b ∈ before, (f b).IsAccepted) ∧
        (f a).IsRefused := by
  unfold IsRefused
  simp only [outcome_mapM_eq_error]
  constructor
  · rintro ⟨failure, before, a, after, split, passed, refused⟩
    exact ⟨before, a, after, split, passed, failure, refused⟩
  · rintro ⟨before, a, after, split, passed, failure, refused⟩
    exact ⟨failure, before, a, after, split, passed, refused⟩

/-- What comes before a refused part need only be decided. -/
theorem isRefused_mapM_of_decided {f : α → Report CheckError β} {before after : List α} {a : α}
    (decided : ∀ b ∈ before, (f b).IsDecided) (refused : (f a).IsRefused) :
    ((before ++ a :: after).mapM f).IsRefused := by
  induction before with
  | nil => exact isRefused_mapM_iff.mpr ⟨[], a, after, rfl, by simp, refused⟩
  | cons first before ih =>
    have later := ih fun b isLater => decided b (List.mem_cons_of_mem first isLater)
    rw [List.cons_append, List.mapM_cons, isRefused_bind_iff]
    rcases decided first List.mem_cons_self with ⟨b, accepted⟩ | refusedFirst
    · exact .inr ⟨b, accepted, isRefused_bind_iff.mpr (.inl later)⟩
    · exact .inl refusedFirst

theorem Below.isAccepted (below : x.Below y) (accepted : x.IsAccepted) : y.IsAccepted := by
  obtain ⟨a, accepted⟩ := accepted
  exact ⟨a, below.outcome_eq_ok accepted⟩

theorem Below.isRefused (below : x.Below y) (refused : x.IsRefused) : y.IsRefused := by
  have ends : x.Ends := IsDecided.ends (.inr refused)
  rwa [below ends]

end Report

namespace Validator

open Report

variable {d : Validator} {check inside across : Check} {path : Path} {v w : Value}
  {parent : Parent} {schema : Schema} {branches : List Schema} {rule : ObjectRule Schema}
  {ps : List Declared}
  {members undeclared : List (String × Value)}

theorem isRefused_refuse {α : Type} {reason : Reason} :
    (Validation.refuse path reason v : Report CheckError α).IsRefused :=
  ⟨_, rfl⟩

theorem not_isAccepted_refuse {α : Type} {reason : Reason} :
    ¬(Validation.refuse path reason v : Report CheckError α).IsAccepted :=
  fun accepted => accepted.not_isRefused isRefused_refuse

theorem isAccepted_checkAllOf_iff :
    (checkAllOf check path v branches).IsAccepted ↔
      ∀ branch ∈ branches, (check path v branch .allOf).IsAccepted := by
  rw [← isAccepted_mapM_iff]
  unfold checkAllOf
  rw [isAccepted_bind_iff]
  constructor
  · rintro ⟨results, passed, -⟩
    exact ⟨results, passed⟩
  · rintro ⟨results, passed⟩
    refine ⟨results, passed, ?_⟩
    cases results with
    | nil => exact ⟨v, rfl⟩
    | cons first rest => exact ⟨rest.foldl merge first, rfl⟩

theorem isRefused_checkAllOf_iff :
    (checkAllOf check path v branches).IsRefused ↔
      (branches.mapM fun branch => check path v branch .allOf).IsRefused := by
  unfold checkAllOf
  rw [isRefused_bind_iff, or_iff_left]
  rintro ⟨results, -, failure, refused⟩
  cases results <;> simp at refused

theorem isAccepted_tryBranch_iff {node : Schema} {index : Nat} :
    (tryBranch check path v node index).IsAccepted ↔ (check path v node .oneOf).IsDecided := by
  unfold IsAccepted IsDecided IsRefused
  simp only [tryBranch_eq_ok]
  constructor
  · rintro ⟨result, ⟨w, accepted, -⟩ | ⟨failure, refused, -⟩⟩
    · exact .inl ⟨w, accepted⟩
    · exact .inr ⟨failure, refused⟩
  · rintro (⟨w, accepted⟩ | ⟨failure, refused⟩)
    · exact ⟨_, .inl ⟨w, accepted, rfl⟩⟩
    · exact ⟨_, .inr ⟨failure, refused, rfl⟩⟩

theorem isAccepted_tries_iff :
    (branches.zipIdx.mapM fun (branch, i) => tryBranch check path v branch i).IsAccepted ↔
      ∀ branch ∈ branches, (check path v branch .oneOf).IsDecided := by
  rw [isAccepted_mapM_iff]
  constructor
  · intro tried branch isBranch
    obtain ⟨i, inBounds, rfl⟩ := List.getElem_of_mem isBranch
    have isEntry : (branches[i], i) ∈ branches.zipIdx := by
      simp [List.mem_zipIdx_iff_getElem?, inBounds]
    exact isAccepted_tryBranch_iff.mp (tried _ isEntry)
  · rintro decided ⟨branch, i⟩ isEntry
    exact isAccepted_tryBranch_iff.mpr (decided branch (List.fst_mem_of_mem_zipIdx isEntry))

theorem isAccepted_checkOneOf_iff :
    (checkOneOf check path v branches).IsAccepted ↔
      (∀ branch ∈ branches, (check path v branch .oneOf).IsDecided) ∧
        ∃ branch ∈ branches, (check path v branch .oneOf).IsAccepted := by
  constructor
  · rintro ⟨w, accepted⟩
    obtain ⟨branch, isBranch, passed⟩ := exists_branch_of_checkOneOf_eq_ok accepted
    obtain ⟨results, tried, -⟩ := checkOneOf_eq_ok.mp accepted
    refine ⟨isAccepted_tries_iff.mp ⟨results, outcome_mapM_eq_ok.mpr tried⟩, ?_⟩
    exact ⟨branch, isBranch, w, passed⟩
  · rintro ⟨decided, branch, isBranch, made, passed⟩
    obtain ⟨results, tried⟩ := isAccepted_tries_iff.mpr decided
    have related := outcome_mapM_eq_ok.mp tried
    obtain ⟨⟨index, w⟩, chosen⟩ := exists_richest (candidates_ne_nil isBranch passed related)
    exact ⟨w, checkOneOf_eq_ok.mpr ⟨results, related, index, chosen⟩⟩

theorem isRefused_checkOneOf_iff :
    (checkOneOf check path v branches).IsRefused ↔
      ∀ branch ∈ branches, (check path v branch .oneOf).IsRefused := by
  constructor
  · rintro ⟨failure, refused⟩ branch isBranch
    have tried : (branches.zipIdx.mapM fun (branch, i) =>
        tryBranch check path v branch i).IsAccepted := by
      unfold checkOneOf at refused
      rcases outcome_bind_eq_error.mp refused with refused | ⟨results, tried, -⟩
      · obtain ⟨before, e, after, -, -, refused⟩ := outcome_mapM_eq_error.mp refused
        exact absurd refused (tryBranch_ne_invalid failure)
      · exact ⟨results, tried⟩
    rcases isAccepted_tries_iff.mp tried branch isBranch with ⟨w, accepted⟩ | refusedBranch
    · exact absurd refused (checkOneOf_ne_invalid isBranch accepted failure)
    · exact refusedBranch
  · intro refused
    obtain ⟨results, tried⟩ :=
      isAccepted_tries_iff.mpr fun branch isBranch => .inr (refused branch isBranch)
    unfold checkOneOf
    refine isRefused_bind_iff.mpr (.inr ⟨results, tried, ?_⟩)
    cases chosen : richest (results.filterMap id) with
    | none => exact isRefused_refuse
    | some best =>
      obtain ⟨index, w⟩ := best
      have accepted := checkOneOf_eq_ok.mpr
        ⟨results, outcome_mapM_eq_ok.mp tried, index, chosen⟩
      obtain ⟨branch, isBranch, passed⟩ := exists_branch_of_checkOneOf_eq_ok accepted
      exact absurd (refused branch isBranch) (IsAccepted.not_isRefused ⟨w, passed⟩)

theorem isAccepted_checkArray_iff {rule : ArrayRule Schema} {items : List Value} :
    (checkArray check path (.array items) rule).IsAccepted ↔
      countViolation? rule items.length = none ∧
        ∀ (i : Nat) (item : Value), items[i]? = some item →
          (check (path.child (.index i)) item rule.items .array).IsAccepted := by
  unfold checkArray
  cases violation : countViolation? rule items.length with
  | some reason => simp [violation, not_isAccepted_refuse]
  | none =>
    simp only [violation, true_and]
    constructor
    · intro accepted i item atItem
      exact isAccepted_mapM_iff.mp accepted.of_bind (item, i)
        (List.mk_mem_zipIdx_iff_getElem?.mpr atItem)
    · intro each
      obtain ⟨results, passed⟩ := isAccepted_mapM_iff.mpr fun (e : Value × Nat) isEntry =>
        each e.2 e.1 (List.mk_mem_zipIdx_iff_getElem?.mp isEntry)
      exact isAccepted_bind_iff.mpr ⟨results, passed, _, rfl⟩

theorem isAccepted_checkProperty_iff {required : List String} {p : Declared} :
    (checkProperty check path required members p).IsAccepted ↔
      (∀ w, Entries.get? members p.name = some w →
          (check (path.child (.key p.name)) w p.node .object).IsAccepted) ∧
        (Entries.get? members p.name = none → p.name ∈ required → p.target.isAny = true) := by
  cases found : Entries.get? members p.name with
  | some w =>
    unfold IsAccepted
    simp [checkProperty_eq_ok_of_some found]
  | none =>
    unfold IsAccepted
    simp only [checkProperty_eq_ok_of_none found]
    by_cases isRequired : p.name ∈ required <;> simp [isRequired]

theorem isAccepted_checkUndeclared_iff :
    (d.checkUndeclared check path v parent rule undeclared).IsAccepted ↔
      rule.additional.fate d.switches parent (undeclared.map Prod.fst) ≠ .reject ∧
        ∀ node, rule.additional.fate d.switches parent (undeclared.map Prod.fst) = .check node →
          ∀ e ∈ undeclared, (check (path.child (.key e.1)) e.2 node .object).IsAccepted := by
  cases fate : rule.additional.fate d.switches parent (undeclared.map Prod.fst) with
  | check node =>
    rw [checkUndeclared_of_check fate, isAccepted_mapM_iff]
    simp only [IsAccepted, outcome_keyed_eq_ok, Prod.exists]
    grind
  | reject => simp [checkUndeclared, fate, not_isAccepted_refuse]
  | _ => simp [checkUndeclared, fate, IsAccepted]

/-- The object has a key that is not declared, and such keys are rejected. -/
def Excess (d : Validator) (rule : ObjectRule Schema) (parent : Parent)
    (members : List (String × Value)) : Prop :=
  rule.additional.Rejects d.switches parent ∧
    ∃ key ∈ Entries.keys members, ∀ p, Offers d.document rule.properties p → p.name ≠ key

theorem exists_undeclared_iff (resolved : declared d.document rule.properties = .ok ps) :
    (members.filter fun e => ps.all fun p => p.name ≠ e.1).map Prod.fst ≠ [] ↔
      ∃ key ∈ Entries.keys members, ∀ p, Offers d.document rule.properties p → p.name ≠ key := by
  simp only [← mem_declared_iff resolved]
  constructor
  · intro some
    obtain ⟨e, isUndeclared⟩ := List.exists_mem_of_ne_nil _ (mt List.map_eq_nil_iff.mpr some)
    obtain ⟨isMember, other⟩ := List.mem_filter.mp isUndeclared
    exact ⟨e.1, List.mem_map.mpr ⟨e, isMember, rfl⟩, by simpa using other⟩
  · rintro ⟨key, isKey, other⟩ none
    obtain ⟨e, isMember, rfl⟩ := List.mem_map.mp isKey
    have isUndeclared : e ∈ members.filter fun e => ps.all fun p => p.name ≠ e.1 :=
      List.mem_filter.mpr ⟨isMember, by simpa using other⟩
    exact List.ne_nil_of_mem isUndeclared (List.map_eq_nil_iff.mp none)

theorem fate_eq_reject_iff_excess (resolved : declared d.document rule.properties = .ok ps) :
    rule.additional.fate d.switches parent
        ((members.filter fun e => ps.all fun p => p.name ≠ e.1).map Prod.fst) = .reject ↔
      d.Excess rule parent members := by
  rw [Additional.fate_eq_reject_iff, exists_undeclared_iff resolved]
  exact and_comm

theorem isRefused_checkUndeclared_of_fate
    (fate : rule.additional.fate d.switches parent (undeclared.map Prod.fst) = .reject) :
    (d.checkUndeclared check path v parent rule undeclared).IsRefused := by
  simp only [checkUndeclared, fate]
  exact isRefused_refuse

theorem isAccepted_checkObject_iff (resolved : declared d.document rule.properties = .ok ps) :
    (d.checkObject check path (.object members) rule parent).IsAccepted ↔
      (ps.mapM (checkProperty check path rule.required members)).IsAccepted ∧
        (d.checkUndeclared check path (.object members) parent rule
          (members.filter fun e => ps.all fun p => p.name ≠ e.1)).IsAccepted := by
  constructor
  · rintro ⟨w, accepted⟩
    obtain ⟨_, others, results, extra, isObject, resolvedAgain, related, passed, -⟩ :=
      checkObject_eq_ok.mp accepted
    obtain rfl := Value.object.inj isObject
    obtain rfl : ps = others := Except.ok.inj (resolved.symm.trans resolvedAgain)
    exact ⟨⟨results, outcome_mapM_eq_ok.mpr related⟩, extra, passed⟩
  · rintro ⟨⟨results, related⟩, extra, passed⟩
    exact ⟨_, checkObject_eq_ok.mpr
      ⟨members, ps, results, extra, rfl, resolved, outcome_mapM_eq_ok.mp related, passed, rfl⟩⟩

theorem isRefused_checkObject_iff (resolved : declared d.document rule.properties = .ok ps) :
    (d.checkObject check path (.object members) rule parent).IsRefused ↔
      (ps.mapM (checkProperty check path rule.required members)).IsRefused ∨
        (ps.mapM (checkProperty check path rule.required members)).IsAccepted ∧
          (d.checkUndeclared check path (.object members) parent rule
            (members.filter fun e => ps.all fun p => p.name ≠ e.1)).IsRefused := by
  have finishes (entries : List (Option (String × Value))) :
      (do
        let extra ← d.checkUndeclared check path (.object members) parent rule
          (members.filter fun e => ps.all fun p => p.name ≠ e.1)
        return Value.object (entries.filterMap id ++ extra)).IsRefused ↔
      (d.checkUndeclared check path (.object members) parent rule
        (members.filter fun e => ps.all fun p => p.name ≠ e.1)).IsRefused := by
    rw [isRefused_bind_iff, or_iff_left]
    rintro ⟨extra, -, failure, refused⟩
    simp at refused
  unfold checkObject
  simp only [resolved, Except.mapError, Report.ofExcept_ok, Report.pure_bind_report,
    isRefused_bind_iff (x := ps.mapM _), finishes]
  exact or_congr_right exists_and_right

theorem outcome_step_object (shapes : d.document.Shapes schema (.object rule))
    (present : v.isNull = false) :
    (d.step inside across path v schema parent).outcome =
      (d.checkObject inside path v rule parent).outcome := by
  obtain ⟨target, resolved, shape⟩ := shapes
  simp [step, resolved, shape, present, Except.mapError]

theorem outcome_step_allOf (shapes : d.document.Shapes schema (.allOf branches))
    (present : v.isNull = false) :
    (d.step inside across path v schema parent).outcome =
      (checkAllOf across path v branches).outcome := by
  obtain ⟨target, resolved, shape⟩ := shapes
  simp [step, resolved, shape, present, Except.mapError]

theorem outcome_step_oneOf (shapes : d.document.Shapes schema (.oneOf branches))
    (present : v.isNull = false) :
    (d.step inside across path v schema parent).outcome =
      (checkOneOf across path v branches).outcome := by
  obtain ⟨target, resolved, shape⟩ := shapes
  simp [step, resolved, shape, present, Except.mapError]

end Validator

end ApiContract

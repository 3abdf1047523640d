import ApiContract.Proofs.Validation.Provenance
import ApiContract.Proofs.Validation.Verdicts

/-!
What a union selects.

An object is never accepted as anything but an object, and nothing else is accepted as one, so the
results among which a union selects are all objects or none is. The rule that compares two of them
then compares their numbers of keys, and the loop keeps the first of the results with most keys. Of
values that are no objects this is the first.
-/

namespace ApiContract

namespace Value

/-- How many keys a value has. Only objects have any. -/
def keyCount (v : Value) : Nat := v.object?.elim 0 List.length

theorem isSome_object?_iff {v : Value} : v.object?.isSome = true ↔ ∃ es, v = .object es := by
  cases v <;> simp [object?]

theorem keyCount_eq_zero {v : Value} (flat : v.object?.isSome = false) : v.keyCount = 0 := by
  cases v <;> first | rfl | cases flat

theorem Derives.isSome_object? {IsDefault : Value → Prop} {readsText : Bool} {v w : Value}
    (present : v.isNull = false) (derives : Derives IsDefault readsText v w) :
    w.object?.isSome = v.object?.isSome := by
  cases derives with
  | coerced coerces =>
    cases coerces with
    | flag read => cases v <;> simp_all [toBool?, object?]
    | _ => rfl
  | filled _ => cases present
  | _ => rfl

end Value

namespace Validator

open Report

variable {d : Validator} {check : Check} {path : Path} {v w next : Value} {schema : Schema}
  {parent : Parent} {branches : List Schema} {results : List Value} {isObject : Bool}

theorem isSome_object?_of_validate_eq_ok (present : v.isNull = false)
    (accepted : (d.validate path v schema parent).outcome = .ok w) :
    w.object?.isSome = v.object?.isSome :=
  (derives_of_validate_eq_ok accepted).isSome_object? present

/-- No other result has more keys, and no earlier one as many. -/
def IsRichest (results : List Value) (w : Value) : Prop :=
  ∃ before after, results = before ++ w :: after ∧ (∀ u ∈ before, u.keyCount < w.keyCount) ∧
    ∀ u ∈ after, u.keyCount ≤ w.keyCount

theorem IsRichest.keyCount_le (richest : IsRichest results w) {u : Value} (isResult : u ∈ results) :
    u.keyCount ≤ w.keyCount := by
  obtain ⟨before, after, rfl, earlier, later⟩ := richest
  rcases List.mem_append.mp isResult with isEarlier | isLater
  · exact (earlier u isEarlier).le
  · rcases List.mem_cons.mp isLater with rfl | isLater
    · exact le_rfl
    · exact later u isLater

theorem IsRichest.concat_richer (richest : IsRichest results w)
    (richer : w.keyCount < next.keyCount) : IsRichest (results ++ [next]) next :=
  ⟨results, [], rfl, fun _ isEarlier => (richest.keyCount_le isEarlier).trans_lt richer, by simp⟩

theorem IsRichest.concat_other (richest : IsRichest results w)
    (poorer : next.keyCount ≤ w.keyCount) : IsRichest (results ++ [next]) w := by
  obtain ⟨before, after, rfl, earlier, later⟩ := richest
  refine ⟨before, after ++ [next], by simp, earlier, ?_⟩
  exact List.forall_mem_append.mpr ⟨later, List.forall_mem_singleton.mpr poorer⟩

/-- Of two results with most keys neither stands before the other. -/
theorem eq_of_append_eq {u : Value} {between after after' : List Value}
    (split : w :: after = between ++ u :: after')
    (fewer : ∀ x ∈ between, x.keyCount < u.keyCount)
    (atMost : ∀ x ∈ after, x.keyCount ≤ w.keyCount) : w = u := by
  cases between with
  | nil => exact (List.cons.inj split).1
  | cons first between =>
    obtain ⟨rfl, rfl⟩ := List.cons.inj split
    have less : w.keyCount < u.keyCount := fewer w List.mem_cons_self
    exact absurd less (Nat.not_lt.mpr (atMost u (by simp)))

theorem IsRichest.unique {u : Value} (richest : IsRichest results w) (other : IsRichest results u) :
    w = u := by
  obtain ⟨before, after, rfl, earlier, later⟩ := richest
  obtain ⟨before', after', split, earlier', later'⟩ := other
  rcases List.append_eq_append_iff.mp split with ⟨between, rfl, rest⟩ | ⟨between, rfl, rest⟩
  · exact eq_of_append_eq rest (fun x isBetween => earlier' x (List.mem_append_right _ isBetween))
      later
  · exact (eq_of_append_eq rest
      (fun x isBetween => earlier x (List.mem_append_right _ isBetween)) later').symm

theorem isRicher_eq_decide (alike : v.object?.isSome = w.object?.isSome) :
    isRicher v w = decide (v.keyCount < w.keyCount) := by
  cases v <;> cases w <;> first | rfl | cases alike

/-- The loop keeps the first result with most keys of those that it has seen. -/
theorem isRichest_foldl {best : Nat × Value} {rest : List (Nat × Value)}
    (alike : ∀ c ∈ best :: rest, c.2.object?.isSome = isObject)
    (richest : IsRichest results best.2) :
    IsRichest (results ++ rest.map Prod.snd)
      (rest.foldl (fun best c => if isRicher best.2 c.2 then c else best) best).2 := by
  -- The invariant is the statement itself, with the results that were seen generalized.
  induction rest generalizing best results with
  | nil => simpa using richest
  | cons next rest ih =>
    obtain ⟨ofBest, ofNext, ofRest⟩ :
        best.2.object?.isSome = isObject ∧ next.2.object?.isSome = isObject ∧
          ∀ c ∈ rest, c.2.object?.isSome = isObject := by simpa using alike
    rw [List.foldl_cons, List.map_cons, List.append_cons,
      isRicher_eq_decide (ofBest.trans ofNext.symm)]
    by_cases richer : best.2.keyCount < next.2.keyCount
    · rw [if_pos (decide_eq_true richer)]
      exact ih (List.forall_mem_cons.mpr ⟨ofNext, ofRest⟩) (richest.concat_richer richer)
    · rw [if_neg (by simpa using richer)]
      exact ih (List.forall_mem_cons.mpr ⟨ofBest, ofRest⟩)
        (richest.concat_other (Nat.le_of_not_lt richer))

theorem isRichest_of_richest_eq_some {candidates : List (Nat × Value)} {best : Nat × Value}
    (alike : ∀ c ∈ candidates, c.2.object?.isSome = isObject)
    (chosen : richest candidates = some best) :
    IsRichest (candidates.map Prod.snd) best.2 := by
  cases candidates with
  | nil => simp [richest] at chosen
  | cons first rest =>
    obtain rfl := Option.some.inj chosen
    have single : IsRichest [first.2] first.2 := ⟨[], [], rfl, by simp, by simp⟩
    exact isRichest_foldl alike single

theorem isRichest_filterMap_iff {f : Schema → Option Value} :
    IsRichest (branches.filterMap f) w ↔
      ∃ before branch after, branches = before ++ branch :: after ∧ f branch = some w ∧
        (∀ other ∈ before, ∀ u, f other = some u → u.keyCount < w.keyCount) ∧
        ∀ other ∈ after, ∀ u, f other = some u → u.keyCount ≤ w.keyCount := by
  constructor
  · rintro ⟨before, after, split, earlier, later⟩
    obtain ⟨front, back, rfl, rfl, chosen⟩ := List.filterMap_eq_append_iff.mp split
    obtain ⟨passed, branch, rest, rfl, refused, made, rfl⟩ := List.filterMap_eq_cons_iff.mp chosen
    refine ⟨front ++ passed, branch, rest, by simp, made, ?_, ?_⟩
    · intro other isEarlier u madeOther
      rcases List.mem_append.mp isEarlier with inFront | isPassed
      · exact earlier u (List.mem_filterMap.mpr ⟨other, inFront, madeOther⟩)
      · simp [refused other isPassed] at madeOther
    · intro other isLater u madeOther
      exact later u (List.mem_filterMap.mpr ⟨other, isLater, madeOther⟩)
  · rintro ⟨before, branch, after, rfl, made, earlier, later⟩
    refine ⟨before.filterMap f, after.filterMap f, by simp [made], ?_, ?_⟩
    · intro u isResult
      obtain ⟨other, isEarlier, madeOther⟩ := List.mem_filterMap.mp isResult
      exact earlier other isEarlier u madeOther
    · intro u isResult
      obtain ⟨other, isLater, madeOther⟩ := List.mem_filterMap.mp isResult
      exact later other isLater u madeOther

/-- What a branch of a union makes of a value. -/
def given? (check : Check) (path : Path) (v : Value) (branch : Schema) : Option Value :=
  (check path v branch .oneOf).outcome.toOption

theorem given?_eq_some_iff {branch : Schema} :
    given? check path v branch = some w ↔ (check path v branch .oneOf).outcome = .ok w := by
  unfold given?
  cases (check path v branch .oneOf).outcome <;> simp [Except.toOption]

/-- Without their indices, the candidates are what the branches make of the value, in order. -/
theorem map_candidates {start : Nat} {tries : List (Option (Nat × Value))}
    (tried : List.Forall₂ (fun (e : Schema × Nat) result =>
      (tryBranch check path v e.1 e.2).outcome = .ok result) (branches.zipIdx start) tries) :
    (tries.filterMap id).map Prod.snd = branches.filterMap (given? check path v) := by
  induction branches generalizing start tries with
  | nil =>
    obtain rfl := List.forall₂_nil_left_iff.mp tried
    rfl
  | cons branch branches ih =>
    obtain ⟨result, rest, first, others, rfl⟩ := List.forall₂_cons_left_iff.mp tried
    rcases tryBranch_eq_ok.mp first with ⟨u, made, rfl⟩ | ⟨failure, refused, rfl⟩
    · have given : given? check path v branch = some u := given?_eq_some_iff.mpr made
      rw [List.filterMap_cons_some (f := id) rfl, List.filterMap_cons_some given, List.map_cons,
        ih others]
    · have given : given? check path v branch = none := by simp [given?, refused, Except.toOption]
      rw [List.filterMap_cons_none (f := id) rfl, List.filterMap_cons_none given, ih others]

/-- A union all of whose branches have a verdict selects the first result with most keys. -/
theorem checkOneOf_eq_ok_iff
    (alike : ∀ branch ∈ branches, ∀ u, (check path v branch .oneOf).outcome = .ok u →
      u.object?.isSome = isObject)
    (decided : ∀ branch ∈ branches, (check path v branch .oneOf).IsDecided) :
    (checkOneOf check path v branches).outcome = .ok w ↔
      IsRichest (branches.filterMap (given? check path v)) w := by
  have selects {u : Value} (accepted : (checkOneOf check path v branches).outcome = .ok u) :
      IsRichest (branches.filterMap (given? check path v)) u := by
    obtain ⟨tries, tried, index, chosen⟩ := checkOneOf_eq_ok.mp accepted
    rw [← map_candidates tried]
    have alikeCandidates : ∀ c ∈ tries.filterMap id, c.2.object?.isSome = isObject := by
      intro c isCandidate
      have isGiven := List.mem_map_of_mem (f := Prod.snd) isCandidate
      rw [map_candidates tried] at isGiven
      obtain ⟨branch, isBranch, given⟩ := List.mem_filterMap.mp isGiven
      exact alike branch isBranch c.2 (given?_eq_some_iff.mp given)
    exact isRichest_of_richest_eq_some alikeCandidates chosen
  refine ⟨selects, fun richest => ?_⟩
  obtain ⟨before, branch, after, rfl, made, -⟩ := isRichest_filterMap_iff.mp richest
  obtain ⟨u, accepted⟩ := isAccepted_checkOneOf_iff.mpr
    ⟨decided, branch, by simp, w, given?_eq_some_iff.mp made⟩
  rw [accepted, (selects accepted).unique richest]

theorem outcome_checkOneOf_of_refused
    (refused : ∀ branch ∈ branches, (check path v branch .oneOf).IsRefused) :
    (checkOneOf check path v branches).outcome = .error (.invalid (.echoing path .noBranch v)) := by
  have none {w : Value} : (checkOneOf check path v branches).outcome ≠ .ok w := by
    intro accepted
    exact IsAccepted.not_isRefused ⟨w, accepted⟩ (isRefused_checkOneOf_iff.mpr refused)
  obtain ⟨tries, tried⟩ :=
    isAccepted_tries_iff.mpr fun branch isBranch => .inr (refused branch isBranch)
  unfold checkOneOf
  rw [outcome_bind_of_eq_ok tried]
  cases chosen : richest (tries.filterMap id) with
  | none => rfl
  | some best =>
    exact absurd (checkOneOf_eq_ok.mpr ⟨tries, outcome_mapM_eq_ok.mp tried, best.1, chosen⟩) none

theorem tryBranch_eq_schema_iff {branch : Schema} {index : Nat} {cause : SchemaFault} :
    (tryBranch check path v branch index).outcome = .error (.schema cause) ↔
      (check path v branch .oneOf).outcome = .error (.schema cause) := by
  refine ⟨tryBranch_error, fun failed => ?_⟩
  unfold tryBranch
  simp [Report.outcome_bind_eq_error, failed]

theorem checkOneOf_eq_schema_iff_tries {cause : SchemaFault} :
    (checkOneOf check path v branches).outcome = .error (.schema cause) ↔
      (branches.zipIdx.mapM fun (branch, i) => tryBranch check path v branch i).outcome =
        .error (.schema cause) := by
  unfold checkOneOf
  rw [outcome_bind_eq_error, or_iff_left]
  rintro ⟨tries, -, failed⟩
  cases chosen : richest (tries.filterMap id) with
  | none =>
    rw [chosen] at failed
    simp [Validation.refuse] at failed
  | some best =>
    rw [chosen] at failed
    simp [Except.map] at failed

/-- A branch has a fault of the schema, and all earlier ones have a verdict. -/
def FaultsFirst (check : Check) (path : Path) (v : Value) (branches : List Schema)
    (cause : SchemaFault) : Prop :=
  ∃ before branch after, branches = before ++ branch :: after ∧
    (∀ other ∈ before, (check path v other .oneOf).IsDecided) ∧
    (check path v branch .oneOf).outcome = .error (.schema cause)

theorem checkOneOf_eq_schema_iff {cause : SchemaFault} :
    (checkOneOf check path v branches).outcome = .error (.schema cause) ↔
      FaultsFirst check path v branches cause := by
  rw [checkOneOf_eq_schema_iff_tries, outcome_mapM_eq_error]
  constructor
  · rintro ⟨before, e, after, split, passed, failed⟩
    refine ⟨before.map Prod.fst, e.1, after.map Prod.fst, ?_, ?_, tryBranch_eq_schema_iff.mp failed⟩
    · rw [← List.map_cons, ← List.map_append, ← split, List.zipIdx_map_fst]
    · intro other isEarlier
      obtain ⟨e, inBefore, rfl⟩ := List.mem_map.mp isEarlier
      exact isAccepted_tryBranch_iff.mp (passed e inBefore)
  · rintro ⟨before, branch, after, rfl, decided, failed⟩
    refine ⟨before.zipIdx, (branch, before.length), after.zipIdx (before.length + 1), ?_, ?_,
      tryBranch_eq_schema_iff.mpr failed⟩
    · simp [List.zipIdx_append]
    · intro e isEarlier
      exact isAccepted_tryBranch_iff.mpr (decided e.1 (List.fst_mem_of_mem_zipIdx isEarlier))

/-- A branch gives the object, no branch gives one with more keys, and no earlier branch one with as
many. -/
def GivesMost (check : Check) (path : Path) (v : Value) (branches : List Schema)
    (es : List (String × Value)) : Prop :=
  ∃ before branch after, branches = before ++ branch :: after ∧
    (check path v branch .oneOf).outcome = .ok (.object es) ∧
    (∀ other ∈ before, ∀ more, (check path v other .oneOf).outcome = .ok (.object more) →
      more.length < es.length) ∧
    ∀ other ∈ after, ∀ more, (check path v other .oneOf).outcome = .ok (.object more) →
      more.length ≤ es.length

/-- A branch gives the value, and all earlier ones refuse theirs. -/
def GivesFirst (check : Check) (path : Path) (v : Value) (branches : List Schema) (w : Value) :
    Prop :=
  ∃ before branch after, branches = before ++ branch :: after ∧
    (∀ other ∈ before, (check path v other .oneOf).IsRefused) ∧
    (check path v branch .oneOf).outcome = .ok w

theorem isRichest_object_iff {es : List (String × Value)}
    (objects : ∀ branch ∈ branches, ∀ u, (check path v branch .oneOf).outcome = .ok u →
      ∃ more, u = .object more) :
    IsRichest (branches.filterMap (given? check path v)) (.object es) ↔
      GivesMost check path v branches es := by
  simp only [isRichest_filterMap_iff, given?_eq_some_iff]
  constructor
  · rintro ⟨before, branch, after, split, made, earlier, later⟩
    exact ⟨before, branch, after, split, made,
      fun other isEarlier more => earlier other isEarlier _,
      fun other isLater more => later other isLater _⟩
  · rintro ⟨before, branch, after, rfl, made, earlier, later⟩
    refine ⟨before, branch, after, rfl, made, ?_, ?_⟩
    · intro other isEarlier u madeOther
      obtain ⟨more, rfl⟩ := objects other (by simp [isEarlier]) u madeOther
      exact earlier other isEarlier more madeOther
    · intro other isLater u madeOther
      obtain ⟨more, rfl⟩ := objects other (by simp [isLater]) u madeOther
      exact later other isLater more madeOther

theorem isRichest_iff_givesFirst
    (flat : ∀ branch ∈ branches, ∀ u, (check path v branch .oneOf).outcome = .ok u →
      u.object?.isSome = false)
    (decided : ∀ branch ∈ branches, (check path v branch .oneOf).IsDecided) :
    IsRichest (branches.filterMap (given? check path v)) w ↔
      GivesFirst check path v branches w := by
  simp only [isRichest_filterMap_iff, given?_eq_some_iff]
  constructor
  · rintro ⟨before, branch, after, rfl, made, earlier, -⟩
    refine ⟨before, branch, after, rfl, fun other isEarlier => ?_, made⟩
    refine (decided other (by simp [isEarlier])).resolve_left ?_
    rintro ⟨u, madeOther⟩
    have fewer := earlier other isEarlier u madeOther
    rw [Value.keyCount_eq_zero (flat branch (by simp) w made)] at fewer
    exact Nat.not_lt_zero _ fewer
  · rintro ⟨before, branch, after, rfl, refused, made⟩
    refine ⟨before, branch, after, rfl, made, ?_, ?_⟩
    · intro other isEarlier u madeOther
      exact absurd (refused other isEarlier) (IsAccepted.not_isRefused ⟨u, madeOther⟩)
    · intro other isLater u madeOther
      rw [Value.keyCount_eq_zero (flat other (by simp [isLater]) u madeOther)]
      exact Nat.zero_le _

theorem checkOneOf_eq_error_iff {e : CheckError}
    (decided : ∀ branch ∈ branches, (check path v branch .oneOf).IsDecided) :
    (checkOneOf check path v branches).outcome = .error e ↔
      e = .invalid (.echoing path .noBranch v) ∧
        ∀ branch ∈ branches, (check path v branch .oneOf).IsRefused := by
  constructor
  · intro failed
    have refused : ∀ branch ∈ branches, (check path v branch .oneOf).IsRefused := by
      intro branch isBranch
      refine (decided branch isBranch).resolve_left fun accepted => ?_
      obtain ⟨w, chosen⟩ := isAccepted_checkOneOf_iff.mpr ⟨decided, branch, isBranch, accepted⟩
      simp [chosen] at failed
    rw [outcome_checkOneOf_of_refused refused] at failed
    exact ⟨(Except.error.inj failed).symm, refused⟩
  · rintro ⟨rfl, refused⟩
    exact outcome_checkOneOf_of_refused refused

theorem checkOneOf_eq_ok_iff_givesMost
    (objects : ∀ branch ∈ branches, ∀ u, (check path v branch .oneOf).outcome = .ok u →
      ∃ es, u = .object es)
    (decided : ∀ branch ∈ branches, (check path v branch .oneOf).IsDecided) :
    (checkOneOf check path v branches).outcome = .ok w ↔
      ∃ es, w = .object es ∧ GivesMost check path v branches es := by
  have alike : ∀ branch ∈ branches, ∀ u, (check path v branch .oneOf).outcome = .ok u →
      u.object?.isSome = true :=
    fun branch isBranch u made => Value.isSome_object?_iff.mpr (objects branch isBranch u made)
  rw [checkOneOf_eq_ok_iff alike decided]
  constructor
  · intro richest
    obtain ⟨before, branch, after, rfl, made, -⟩ := isRichest_filterMap_iff.mp richest
    obtain ⟨es, rfl⟩ := objects branch (by simp) w (given?_eq_some_iff.mp made)
    exact ⟨es, rfl, (isRichest_object_iff objects).mp richest⟩
  · rintro ⟨es, rfl, givesMost⟩
    exact (isRichest_object_iff objects).mpr givesMost

theorem checkOneOf_eq_ok_iff_givesFirst
    (flat : ∀ branch ∈ branches, ∀ u, (check path v branch .oneOf).outcome = .ok u →
      u.object?.isSome = false)
    (decided : ∀ branch ∈ branches, (check path v branch .oneOf).IsDecided) :
    (checkOneOf check path v branches).outcome = .ok w ↔ GivesFirst check path v branches w := by
  rw [checkOneOf_eq_ok_iff flat decided, isRichest_iff_givesFirst flat decided]

/-- What a union selects, for a value other than null. Where every branch has a verdict, the union
fails, at its own place and with the whole value, when all branches refuse. Otherwise it selects of
objects the first with most keys, and all results are objects if the value is one; of other results
it selects the first. A fault of the schema in a branch is passed on if no earlier one stops the
check, whatever the branches after it do. -/
theorem union_selects (d : Validator) (path : Path) (v : Value) (branches : List Schema)
    (present : v.isNull = false) :
    ((∀ branch ∈ branches, (d.validate path v branch .oneOf).IsDecided) →
      (∀ e, (checkOneOf d.validate path v branches).outcome = .error e ↔
        e = .invalid (.echoing path .noBranch v) ∧
          ∀ branch ∈ branches, (d.validate path v branch .oneOf).IsRefused) ∧
      (∀ members, v = .object members →
        (∀ branch ∈ branches, ∀ w, (d.validate path v branch .oneOf).outcome = .ok w →
          ∃ es, w = .object es) ∧
        ∀ w, (checkOneOf d.validate path v branches).outcome = .ok w ↔
          ∃ es, w = .object es ∧ GivesMost d.validate path v branches es) ∧
      ((∀ members, v ≠ .object members) →
        (∀ branch ∈ branches, ∀ w, (d.validate path v branch .oneOf).outcome = .ok w →
          ∀ es, w ≠ .object es) ∧
        ∀ w, (checkOneOf d.validate path v branches).outcome = .ok w ↔
          GivesFirst d.validate path v branches w)) ∧
    ∀ cause, (checkOneOf d.validate path v branches).outcome = .error (.schema cause) ↔
      FaultsFirst d.validate path v branches cause := by
  have alike : ∀ branch ∈ branches, ∀ w, (d.validate path v branch .oneOf).outcome = .ok w →
      w.object?.isSome = v.object?.isSome :=
    fun branch _ w accepted => isSome_object?_of_validate_eq_ok present accepted
  refine ⟨fun decided => ⟨fun e => checkOneOf_eq_error_iff decided, ?_, ?_⟩,
    fun cause => checkOneOf_eq_schema_iff⟩
  · rintro members rfl
    have objects : ∀ branch ∈ branches, ∀ w,
        (d.validate path (.object members) branch .oneOf).outcome = .ok w →
          ∃ es, w = .object es :=
      fun branch isBranch w accepted =>
        Value.isSome_object?_iff.mp (alike branch isBranch w accepted)
    exact ⟨objects, fun w => checkOneOf_eq_ok_iff_givesMost objects decided⟩
  · intro isFlat
    have flat : ∀ branch ∈ branches, ∀ w, (d.validate path v branch .oneOf).outcome = .ok w →
        w.object?.isSome = false := by
      intro branch isBranch w accepted
      rw [alike branch isBranch w accepted, Bool.eq_false_iff, Ne, Value.isSome_object?_iff]
      exact fun ⟨members, same⟩ => isFlat members same
    refine ⟨fun branch isBranch w accepted es isObject => ?_,
      fun w => checkOneOf_eq_ok_iff_givesFirst flat decided⟩
    subst isObject
    cases flat branch isBranch _ accepted

def place : List (String × Value) := [("street", .string "Main"), ("city", .string "Oslo")]

def placeBranches : List Schema :=
  [.number, .object [("street", .string)] [],
    .object [("street", .string), ("city", .string)] []]

/-- The branch by street accepts the place too, but leaves out the city. -/
theorem whole_place_selected :
    (Value.object place).isNull = false ∧
      (∀ branch ∈ placeBranches,
        (({} : Validator).validate { root := "q" } (.object place) branch .oneOf).IsDecided) ∧
      (checkOneOf ({} : Validator).validate { root := "q" } (.object place)
        placeBranches).outcome = .ok (.object place) ∧
      (checkOneOf ({} : Validator).validate { root := "q" } (.object place)
        [.number, .reference "Place", .object [] []]).outcome =
          .error (.schema (.unresolvable "Place")) := by
  have byNumber : (({} : Validator).validate { root := "q" } (.object place) .number
      .oneOf).IsRefused :=
    (checkWithin_below_validate 1 1).isRefused ⟨_, rfl⟩
  have byStreet : (({} : Validator).validate { root := "q" } (.object place)
      (.object [("street", .string)] []) .oneOf).outcome =
        .ok (.object [("street", .string "Main")]) :=
    (checkWithin_below_validate 1 2).outcome_eq_ok rfl
  have byBoth : (({} : Validator).validate { root := "q" } (.object place)
      (.object [("street", .string), ("city", .string)] []) .oneOf).outcome = .ok (.object place) :=
    (checkWithin_below_validate 1 2).outcome_eq_ok rfl
  have decided : ∀ branch ∈ placeBranches,
      (({} : Validator).validate { root := "q" } (.object place) branch .oneOf).IsDecided := by
    simp only [placeBranches, List.forall_mem_cons]
    exact ⟨.inr byNumber, .inl ⟨_, byStreet⟩, .inl ⟨_, byBoth⟩, by simp⟩
  have dangling : (({} : Validator).checkWithin 1 1 { root := "q" } (.object place)
      (.reference "Place") .oneOf).outcome = .error (.schema (.unresolvable "Place")) := rfl
  refine ⟨rfl, decided, ?_, ?_⟩
  · have selected := (((union_selects {} { root := "q" } (.object place) placeBranches rfl).1
      decided).2.1 place rfl).2
    refine (selected (.object place)).mpr ⟨place, rfl,
      [.number, .object [("street", .string)] []], _, [], rfl, byBoth, ?_, by simp⟩
    intro other isEarlier more made
    rcases List.mem_cons.mp isEarlier with rfl | isEarlier
    · exact absurd byNumber (IsAccepted.not_isRefused ⟨_, made⟩)
    · obtain rfl := List.mem_singleton.mp isEarlier
      obtain rfl := Value.object.inj (Except.ok.inj (byStreet.symm.trans made))
      decide
  · have stopped := (union_selects {} { root := "q" } (.object place)
      [.number, .reference "Place", .object [] []] rfl).2
    refine (stopped _).mpr ⟨[.number], .reference "Place", [.object [] []], rfl, ?_, ?_⟩
    · exact List.forall_mem_singleton.mpr (.inr byNumber)
    · exact validate_outcome_of_checkWithin dangling (by simp)

end Validator

end ApiContract

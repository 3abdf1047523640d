import ApiContract.Proofs.Schema.Normal

/-!
Unions in the normal form.

A union of the normal form lacks the null branches. One that is left with a single branch has
become an intersection.
-/

namespace ApiContract

namespace Json

open Entries

variable {ms : Entries Json} {key other : String} {j : Json} {union : Option Json} {s : NullScan}

inductive IsUnion : String → Prop
  | oneOf : IsUnion "oneOf"
  | anyOf : IsUnion "anyOf"

theorem IsUnion.mem_branchKeys (isUnion : IsUnion key) : key ∈ branchKeys := by
  cases isUnion <;> decide

theorem IsUnion.ne_allOf (isUnion : IsUnion key) : key ≠ "allOf" := by
  cases isUnion <;> decide

/-- An object has each key once. -/
def Keyed (j : Json) : Prop := ∀ members, j = object members → Distinct members

/-- A schema object has each key once, and so have the branches of its unions. -/
structure WellKeyed (ms : Entries Json) : Prop where
  distinct : Distinct ms
  branches {key : String} : IsUnion key → ∀ branch ∈ branchList (ms.get? key), branch.Keyed

theorem WellKeyed.of_array {branches : List Json} (wellKeyed : WellKeyed ms) (isUnion : IsUnion key)
    (given : ms.get? key = some (array branches)) : ∀ branch ∈ branches, branch.Keyed := by
  have keyed := wellKeyed.branches isUnion
  rwa [given] at keyed

theorem isNullBranch_normalSchema (keyed : j.Keyed) :
    isNullBranch (normalSchema j) = isNullBranch j := by
  cases j with
  | object members =>
    rw [normalSchema_object]
    exact isNullName_normalMembers (keyed members rfl)
  | bool accepts =>
    cases accepts
    · rfl
    · rfl
  | _ => rfl

theorem normalMember_branches (isBranchKey : key ∈ branchKeys) (branches : List Json) :
    normalMember key (array branches) = array (branches.map normalSchema) := by
  have schemaKey : key ∉ dataKeys := by
    simp only [branchKeys, List.mem_cons, List.not_mem_nil, or_false] at isBranchKey
    rcases isBranchKey with rfl | rfl | rfl <;> decide
  simp [normalMember, schemaKey, memberWithoutBooleans, isBranchKey, itemsWithoutBooleans_eq,
    itemsWithoutConst_eq, itemsWithNullable_eq, withoutConst, withNullable, normalSchema,
    Function.comp_def]

theorem array?_normalMember (isBranchKey : key ∈ branchKeys) (j : Json) :
    (normalMember key j).array? = j.array?.map fun branches => branches.map normalSchema := by
  cases j with
  | array branches =>
    rw [normalMember_branches isBranchKey]
    rfl
  | _ =>
    simp only [branchKeys, List.mem_cons, List.not_mem_nil, or_false] at isBranchKey
    rcases isBranchKey with rfl | rfl | rfl <;>
      simp [normalMember, memberWithoutBooleans, withoutConst, withNullable, dataKeys, array?]

theorem branchList_normalMember (isBranchKey : key ∈ branchKeys) (union : Option Json) :
    branchList (union.map (normalMember key)) = (branchList union).map normalSchema := by
  cases union with
  | none => rfl
  | some j =>
    simp only [branchList, Option.map_some, Option.bind_some, array?_normalMember isBranchKey]
    cases j.array? <;> rfl

theorem any_map_normalSchema {branches : List Json} (keyed : ∀ branch ∈ branches, branch.Keyed) :
    (branches.map normalSchema).any isNullBranch = branches.any isNullBranch := by
  rw [List.any_map, Bool.eq_iff_iff, List.any_eq_true, List.any_eq_true]
  refine exists_congr fun branch => and_congr_right fun isBranch => ?_
  rw [Function.comp, isNullBranch_normalSchema (keyed branch isBranch)]

theorem filter_map_normalSchema {branches : List Json}
    (keyed : ∀ branch ∈ branches, branch.Keyed) :
    (branches.map normalSchema).filter (fun b => !isNullBranch b) =
      (branches.filter fun b => !isNullBranch b).map normalSchema := by
  rw [List.filter_map]
  congr 1
  apply List.filter_congr
  intro branch isBranch
  simp [isNullBranch_normalSchema (keyed branch isBranch)]

section

variable (isBranchKey : key ∈ branchKeys) (keyed : ∀ branch ∈ branchList union, branch.Keyed)

include isBranchKey keyed

theorem admitsNull_normalMember :
    admitsNull (union.map (normalMember key)) = admitsNull union := by
  rw [admitsNull, branchList_normalMember isBranchKey, any_map_normalSchema keyed, admitsNull]

theorem remainder?_normalMember :
    remainder? (union.map (normalMember key)) = (remainder? union).map normalSchema := by
  unfold remainder?
  rw [branchList_normalMember isBranchKey, filter_map_normalSchema keyed,
    admitsNull_normalMember isBranchKey keyed]
  match (branchList union).filter fun b => !isNullBranch b with
  | [] => rfl
  | [only] => by_cases admits : admitsNull union = true <;> simp [admits]
  | _ :: _ :: _ => rfl

end

theorem branchList_withoutNulls (union : Option Json) :
    branchList (union.map withoutNulls) =
      (branchList union).filter fun b => !isNullBranch b := by
  cases union with
  | none => rfl
  | some j => cases j <;> rfl

section

variable (wellKeyed : WellKeyed ms)

include wellKeyed

theorem get?_normalMembers_union (isUnion : IsUnion key) :
    (normalMembers ms).get? key =
      if (remainder? (ms.get? key)).isSome then none
      else ((ms.get? key).map (normalMember key)).map withoutNulls := by
  have listed := distinct_listedMembers wellKeyed.distinct
  have same : (listedMembers ms).get? key = (ms.get? key).map (normalMember key) :=
    get?_listedMembers wellKeyed.distinct (by cases isUnion <;> decide)
  have left := remainder?_normalMember isUnion.mem_branchKeys (wellKeyed.branches isUnion)
  cases isUnion with
  | oneOf =>
    rw [normalMembers, get?_flagNull (by decide), get?_scanMembers_oneOf listed, same, left]
    simp
  | anyOf =>
    rw [normalMembers, get?_flagNull (by decide), get?_scanMembers_anyOf listed, same, left]
    simp

theorem get?_normalMembers_allOf :
    (normalMembers ms).get? "allOf" =
      ((remainder? (ms.get? "anyOf")).or (remainder? (ms.get? "oneOf"))).elim
        ((ms.get? "allOf").map (normalMember "allOf"))
        fun only => some (array [normalSchema only]) := by
  obtain ⟨distinct, branches⟩ := wellKeyed
  rw [normalMembers, get?_flagNull (by decide),
    get?_scanMembers_allOf (distinct_listedMembers distinct),
    get?_listedMembers distinct (by decide), get?_listedMembers distinct (by decide),
    get?_listedMembers distinct (by decide), remainder?_normalMember (by decide) (branches .oneOf),
    remainder?_normalMember (by decide) (branches .anyOf)]
  cases remainder? (ms.get? "anyOf") <;> cases remainder? (ms.get? "oneOf") <;> rfl

theorem get?_normalMembers_nullable_of_admitsNull (isUnion : IsUnion key)
    (admits : admitsNull (ms.get? key) = true) :
    (normalMembers ms).get? "nullable" = some (bool true) := by
  have flagged : (scanMembers (listedMembers ms)).nullable = true := by
    apply nullable_scanMembers (distinct_listedMembers wellKeyed.distinct)
    have listed : (listedMembers ms).get? key = (ms.get? key).map (normalMember key) :=
      get?_listedMembers wellKeyed.distinct (by cases isUnion <;> decide)
    have normal := admitsNull_normalMember isUnion.mem_branchKeys (wellKeyed.branches isUnion)
    rw [← listed, admits] at normal
    cases isUnion with
    | oneOf => exact .inl normal
    | anyOf => exact .inr normal
  rw [normalMembers, flagNull_eq, if_pos flagged]
  exact get?_insert_self _ _ _

end

theorem get?_normalMembers_nullable (distinct : Distinct ms) :
    (normalMembers ms).get? "nullable" = some (bool true) ∨
      (normalMembers ms).get? "nullable" = (ms.get? "nullable").map (normalMember "nullable") := by
  rw [normalMembers, flagNull_eq]
  split
  · exact .inl (get?_insert_self _ _ _)
  · rw [get?_scanMembers (distinct_listedMembers distinct) (by decide),
      get?_listedMembers distinct (by decide)]
    exact .inr rfl

end Json

end ApiContract

import ApiContract.Proofs.Schema.Passes

/-!
The normal form of a schema object, keyword by keyword.

What stands under a key of the normal form is the normal form of what stood there, but for the
keywords for constants and for nullability and for the unions.
-/

namespace ApiContract

namespace Json

open Entries

variable {ms : Entries Json} {key other : String} {j : Json} {union : Option Json} {s : NullScan}

def scanMembers (ms : Entries Json) : NullScan :=
  scanUnion "anyOf" (scanUnion "oneOf" (scanTypes (scanFlag ⟨ms, false⟩)))

theorem flagNull_eq (ms : Entries Json) :
    flagNull ms =
      if (scanMembers ms).nullable then (scanMembers ms).members.insert "nullable" (bool true)
      else (scanMembers ms).members :=
  rfl

section

variable (distinct : Distinct ms)

include distinct

theorem distinct_scanTypes_scanFlag : Distinct (scanTypes (scanFlag ⟨ms, false⟩)).members :=
  distinct_scanTypes (distinct_scanFlag distinct)

theorem get?_scanTypes_scanFlag (other : key ∉ ["x-nullable", "type"]) :
    (scanTypes (scanFlag ⟨ms, false⟩)).members.get? key = ms.get? key := by
  simp only [List.mem_cons, List.not_mem_nil, or_false, not_or] at other
  rw [get?_scanTypes (distinct_scanFlag distinct) other.2, get?_scanFlag distinct other.1]

theorem get?_scanMembers (other : key ∉ ["x-nullable", "type", "oneOf", "anyOf", "allOf"]) :
    (scanMembers ms).members.get? key = ms.get? key := by
  simp only [List.mem_cons, List.not_mem_nil, or_false, not_or] at other
  obtain ⟨notFlag, notType, notOneOf, notAnyOf, notAllOf⟩ := other
  have start := distinct_scanTypes_scanFlag distinct
  unfold scanMembers
  rw [get?_scanUnion_of_ne (distinct_scanUnion start "oneOf") (Ne.symm notAnyOf) notAllOf,
    get?_scanUnion_of_ne start (Ne.symm notOneOf) notAllOf,
    get?_scanTypes_scanFlag distinct (by simp [notFlag, notType])]

theorem get?_scanMembers_oneOf :
    (scanMembers ms).members.get? "oneOf" =
      if (remainder? (ms.get? "oneOf")).isSome then none
      else (ms.get? "oneOf").map withoutNulls := by
  have start := distinct_scanTypes_scanFlag distinct
  unfold scanMembers
  rw [get?_scanUnion_of_ne (distinct_scanUnion start "oneOf") (by decide) (by decide),
    get?_scanUnion_self start (by decide), get?_scanTypes_scanFlag distinct (by decide)]

theorem get?_scanUnion_oneOf_anyOf :
    (scanUnion "oneOf" (scanTypes (scanFlag ⟨ms, false⟩))).members.get? "anyOf" =
      ms.get? "anyOf" := by
  rw [get?_scanUnion_of_ne (distinct_scanTypes_scanFlag distinct) (by decide) (by decide),
    get?_scanTypes_scanFlag distinct (by decide)]

theorem get?_scanMembers_anyOf :
    (scanMembers ms).members.get? "anyOf" =
      if (remainder? (ms.get? "anyOf")).isSome then none
      else (ms.get? "anyOf").map withoutNulls := by
  have start := distinct_scanTypes_scanFlag distinct
  unfold scanMembers
  rw [get?_scanUnion_self (distinct_scanUnion start "oneOf") (by decide),
    get?_scanUnion_oneOf_anyOf distinct]

theorem get?_scanMembers_allOf :
    (scanMembers ms).members.get? "allOf" =
      ((remainder? (ms.get? "anyOf")).map fun only => array [only]).or
        (((remainder? (ms.get? "oneOf")).map fun only => array [only]).or (ms.get? "allOf")) := by
  unfold scanMembers
  rw [get?_scanUnion_allOf (by decide), get?_scanUnion_allOf (by decide),
    get?_scanUnion_oneOf_anyOf distinct, get?_scanTypes_scanFlag distinct (by decide),
    get?_scanTypes_scanFlag distinct (by decide)]

theorem nullable_scanMembers
    (admits : admitsNull (ms.get? "oneOf") = true ∨ admitsNull (ms.get? "anyOf") = true) :
    (scanMembers ms).nullable = true := by
  unfold scanMembers
  rw [nullable_scanUnion, nullable_scanUnion, get?_scanUnion_oneOf_anyOf distinct,
    get?_scanTypes_scanFlag distinct (by decide)]
  rcases admits with admits | admits <;> simp [admits]

end

theorem flagNull_eq_self (noFlag : ms.get? "x-nullable" = none)
    (noList : ∀ key ∈ ["type", "oneOf", "anyOf"], ∀ items, ms.get? key ≠ some (array items)) :
    flagNull ms = ms := by
  have flag : scanFlag ⟨ms, false⟩ = ⟨ms, false⟩ := by simp [scanFlag, noFlag]
  have types : scanTypes ⟨ms, false⟩ = ⟨ms, false⟩ := by
    unfold scanTypes
    split
    next items found => exact absurd found (noList "type" (by simp) items)
    · rfl
  have union (key : String) (isKey : key ∈ ["type", "oneOf", "anyOf"]) :
      scanUnion key ⟨ms, false⟩ = ⟨ms, false⟩ := by
    unfold scanUnion
    split
    next items found => exact absurd found (noList key isKey items)
    · rfl
  simp [flagNull_eq, scanMembers, flag, types, union]

theorem get?_flagNull (notNullable : key ≠ "nullable") :
    (flagNull ms).get? key = (scanMembers ms).members.get? key := by
  rw [flagNull_eq]
  split
  · exact get?_insert_of_ne _ _ (Ne.symm notNullable)
  · rfl

/-- The members of a schema object before the pass for nullability reaches the object itself. -/
def listedMembers (ms : Entries Json) : Entries Json :=
  membersWithNullable (listConst (membersWithoutConst (membersWithoutBooleans ms)))

/-- The members of a schema object after all passes. -/
def normalMembers (ms : Entries Json) : Entries Json := flagNull (listedMembers ms)

theorem normalSchema_object (ms : Entries Json) :
    normalSchema (object ms) = object (normalMembers ms) := by
  simp [normalSchema, withoutBooleans, withoutConst, withNullable, normalMembers, listedMembers]

def normalMember (key : String) (j : Json) : Json :=
  if key ∈ dataKeys then memberWithoutBooleans key j
  else (memberWithoutBooleans key j).withoutConst.withNullable

theorem listedMembers_eq_map (noConst : ms.get? "const" = none) :
    listedMembers ms = ms.map fun e => (e.1, normalMember e.1 e.2) := by
  have still : Entries.get? (membersWithoutConst (membersWithoutBooleans ms)) "const" = none := by
    rw [membersWithoutConst_eq,
      Entries.get?_mapKeyed fun key j => if key ∈ dataKeys then j else withoutConst j,
      membersWithoutBooleans_eq, Entries.get?_mapKeyed, noConst]
    rfl
  rw [listedMembers, listConst_eq_self still, membersWithNullable_eq, membersWithoutConst_eq,
    membersWithoutBooleans_eq, List.map_map, List.map_map]
  refine List.map_congr_left fun e _ => ?_
  by_cases isData : e.1 ∈ dataKeys <;> simp [normalMember, isData]

/-- An object without keywords for constants and nullability is mapped member by member. -/
theorem normalSchema_eq_map (noConst : ms.get? "const" = none)
    (noFlag : ms.get? "x-nullable" = none)
    (noList : ∀ key ∈ ["type", "oneOf", "anyOf"],
      ∀ items, (ms.get? key).map (normalMember key) ≠ some (array items)) :
    normalSchema (object ms) = object (ms.map fun e => (e.1, normalMember e.1 e.2)) := by
  rw [normalSchema_object, normalMembers, listedMembers_eq_map noConst, flagNull_eq_self]
  · rw [get?_mapKeyed, noFlag]
    rfl
  · intro key isKey items
    rw [get?_mapKeyed]
    exact noList key isKey items

theorem keys_membersWithoutConst (ms : Entries Json) :
    keys (membersWithoutConst (membersWithoutBooleans ms)) = keys ms := by
  rw [membersWithoutConst_eq,
    keys_mapKeyed fun key j => if key ∈ dataKeys then j else withoutConst j,
    membersWithoutBooleans_eq, keys_mapKeyed]

theorem get?_membersWithNullable (ms : Entries Json) (key : String) :
    Entries.get? (membersWithNullable ms) key =
      (ms.get? key).map fun j => if key ∈ dataKeys then j else withNullable j := by
  rw [membersWithNullable_eq]
  exact get?_mapKeyed (fun key j => if key ∈ dataKeys then j else withNullable j) ms key

theorem get?_membersWithoutConst (ms : Entries Json) (key : String) :
    Entries.get? (membersWithoutConst (membersWithoutBooleans ms)) key =
      (ms.get? key).map fun j =>
        if key ∈ dataKeys then memberWithoutBooleans key j
        else (memberWithoutBooleans key j).withoutConst := by
  rw [membersWithoutConst_eq,
    get?_mapKeyed fun key j => if key ∈ dataKeys then j else withoutConst j,
    membersWithoutBooleans_eq, get?_mapKeyed, Option.map_map]
  rfl

section

variable (distinct : Distinct ms)

include distinct

theorem distinct_membersWithoutConst :
    Distinct (membersWithoutConst (membersWithoutBooleans ms)) := by
  rw [Distinct, keys_membersWithoutConst]
  exact distinct

theorem distinct_listedMembers : Distinct (listedMembers ms) := by
  have same : keys (listedMembers ms) =
      keys (listConst (membersWithoutConst (membersWithoutBooleans ms))) := by
    rw [listedMembers, membersWithNullable_eq,
      keys_mapKeyed fun key j => if key ∈ dataKeys then j else withNullable j]
  rw [Distinct, same]
  exact distinct_listConst (distinct_membersWithoutConst distinct)

theorem get?_listedMembers (other : key ∉ ["const", "enum", "type"]) :
    (listedMembers ms).get? key = (ms.get? key).map (normalMember key) := by
  rw [listedMembers, get?_membersWithNullable,
    get?_listConst (distinct_membersWithoutConst distinct) other,
    get?_membersWithoutConst, Option.map_map]
  congr 1
  funext j
  by_cases isData : key ∈ dataKeys <;> simp [normalMember, isData]

theorem isNullName_listedMembers :
    ((listedMembers ms).get? "type").any isNullName = (ms.get? "type").any isNullName := by
  have member (j : Json) :
      isNullName (withNullable (withoutConst (memberWithoutBooleans "type" j))) = isNullName j := by
    cases j <;>
      simp [memberWithoutBooleans, withoutConst, withNullable, branchKeys, isNullName, string?]
  rw [listedMembers, get?_membersWithNullable]
  rw [get?_listConst_type (distinct_membersWithoutConst distinct), get?_membersWithoutConst,
    get?_membersWithoutConst]
  cases ms.get? "type" with
  | some j => simpa [dataKeys] using member j
  | none =>
    cases ms.get? "const" with
    | none => rfl
    | some c =>
      cases typed : constType? (memberWithoutBooleans "const" c) with
      | none => simp [dataKeys, typed]
      | some t =>
        have notNull : t ≠ "null" := fun same => constType?_ne_null _ (same ▸ typed)
        simp [dataKeys, typed, withNullable, isNullName, string?, notNull]

/-- Under keys that no pass acts on the normal form has the normal form of what stood there. -/
theorem get?_normalMembers (other : key ∉ ["const", "enum", "type", "x-nullable", "oneOf", "anyOf",
    "allOf", "nullable"]) :
    (normalMembers ms).get? key = (ms.get? key).map (normalMember key) := by
  simp only [List.mem_cons, List.not_mem_nil, or_false, not_or] at other
  obtain ⟨notConst, notEnum, notType, notFlag, notOneOf, notAnyOf, notAllOf, notNullable⟩ := other
  rw [normalMembers, get?_flagNull notNullable,
    get?_scanMembers (distinct_listedMembers distinct)
      (by simp [notFlag, notType, notOneOf, notAnyOf, notAllOf]),
    get?_listedMembers distinct (by simp [notConst, notEnum, notType])]

theorem isNullName_normalMembers :
    ((normalMembers ms).get? "type").any isNullName = (ms.get? "type").any isNullName := by
  have listed := distinct_listedMembers distinct
  rw [normalMembers, get?_flagNull (by decide), scanMembers,
    get?_scanUnion_of_ne (distinct_scanUnion (distinct_scanTypes_scanFlag listed) "oneOf")
      (by decide) (by decide),
    get?_scanUnion_of_ne (distinct_scanTypes_scanFlag listed) (by decide) (by decide),
    isNullName_scanTypes (distinct_scanFlag listed), get?_scanFlag listed (by decide),
    isNullName_listedMembers distinct]

end

end Json

end ApiContract

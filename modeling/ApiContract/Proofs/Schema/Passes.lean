import ApiContract.Proofs.Entries
import ApiContract.Schema.Normal

/-!
The passes over the members of a schema object.

The passes map the members one by one. At the object itself they move only the keywords for
constants and for nullability.
-/

namespace ApiContract

namespace Json

open Entries

variable {ms : Entries Json} {key other : String} {j : Json} {union : Option Json} {s : NullScan}

def memberWithoutBooleans (key : String) : Json → Json
  | object inner =>
    if key = "properties" then object (valuesWithoutBooleans inner)
    else if key = "items" ∨ key = "additionalProperties" then withoutBooleans (object inner)
    else object inner
  | array items => if key ∈ branchKeys then array (itemsWithoutBooleans items) else array items
  | j => if key = "items" then withoutBooleans j else j

theorem membersWithoutBooleans_eq (ms : Entries Json) :
    membersWithoutBooleans ms = ms.map fun e => (e.1, memberWithoutBooleans e.1 e.2) := by
  induction ms with
  | nil => rfl
  | cons e ms ih =>
    obtain ⟨key, j⟩ := e
    cases j <;> simp [membersWithoutBooleans, memberWithoutBooleans, withoutBooleans, ih]

theorem membersWithoutConst_eq (ms : Entries Json) :
    membersWithoutConst ms =
      ms.map fun e => (e.1, if e.1 ∈ dataKeys then e.2 else withoutConst e.2) := by
  induction ms with
  | nil => rfl
  | cons e ms ih => simp [membersWithoutConst, ih]

theorem membersWithNullable_eq (ms : Entries Json) :
    membersWithNullable ms =
      ms.map fun e => (e.1, if e.1 ∈ dataKeys then e.2 else withNullable e.2) := by
  induction ms with
  | nil => rfl
  | cons e ms ih => simp [membersWithNullable, ih]

theorem valuesWithoutBooleans_eq (ms : Entries Json) :
    valuesWithoutBooleans ms = ms.map fun e => (e.1, withoutBooleans e.2) := by
  induction ms with
  | nil => rfl
  | cons e ms ih => simp [valuesWithoutBooleans, ih]

theorem itemsWithoutBooleans_eq (items : List Json) :
    itemsWithoutBooleans items = items.map withoutBooleans := by
  induction items with
  | nil => rfl
  | cons j items ih => simp [itemsWithoutBooleans, ih]

theorem itemsWithoutConst_eq (items : List Json) :
    itemsWithoutConst items = items.map withoutConst := by
  induction items with
  | nil => rfl
  | cons j items ih => simp [itemsWithoutConst, ih]

theorem itemsWithNullable_eq (items : List Json) :
    itemsWithNullable items = items.map withNullable := by
  induction items with
  | nil => rfl
  | cons j items ih => simp [itemsWithNullable, ih]

theorem listConst_eq (ms : Entries Json) :
    listConst ms =
      match ms.get? "const" with
      | none => ms
      | some c =>
        match constType? c with
        | some t =>
          ((ms.swapRemove "const").insertNew "enum" (array [c])).insertNew "type" (string t)
        | none => (ms.swapRemove "const").insertNew "enum" (array [c]) :=
  rfl

theorem listConst_eq_self (absent : ms.get? "const" = none) : listConst ms = ms := by
  simp [listConst, absent]

theorem distinct_listConst (distinct : Distinct ms) : Distinct (listConst ms) := by
  rw [listConst_eq]
  split
  · exact distinct
  · split
    · exact ((distinct.swapRemove "const").insertNew "enum" _).insertNew "type" _
    · exact (distinct.swapRemove "const").insertNew "enum" _

theorem get?_listConst (distinct : Distinct ms) (other : key ∉ ["const", "enum", "type"]) :
    (listConst ms).get? key = ms.get? key := by
  simp only [List.mem_cons, List.not_mem_nil, or_false, not_or] at other
  obtain ⟨notConst, notEnum, notType⟩ := other
  have removed := get?_swapRemove_of_ne distinct (Ne.symm notConst)
  rw [listConst_eq]
  split
  · rfl
  · split
    · rw [get?_insertNew_of_ne _ _ (Ne.symm notType), get?_insertNew_of_ne _ _ (Ne.symm notEnum),
        removed]
    · rw [get?_insertNew_of_ne _ _ (Ne.symm notEnum), removed]

theorem constType?_ne_null (c : Json) : constType? c ≠ some "null" := by
  cases c with
  | number n => cases n <;> simp [constType?]
  | _ => simp [constType?]

theorem get?_listConst_type (distinct : Distinct ms) :
    (listConst ms).get? "type" =
      (ms.get? "type").or (((ms.get? "const").bind constType?).map string) := by
  have removed : (ms.swapRemove "const").get? "type" = ms.get? "type" :=
    get?_swapRemove_of_ne distinct (by decide)
  rw [listConst_eq]
  split
  next absent => simp [absent]
  next c given =>
    rw [given, Option.bind_some]
    split
    next t typed =>
      rw [get?_insertNew_self, get?_insertNew_of_ne _ _ (by decide), removed, typed]
      cases ms.get? "type" <;> rfl
    next untyped => rw [get?_insertNew_of_ne _ _ (by decide), removed, untyped]; simp

theorem get?_listConst_enum (distinct : Distinct ms) :
    (listConst ms).get? "enum" =
      (ms.get? "enum").or ((ms.get? "const").map fun c => array [c]) := by
  have removed : (ms.swapRemove "const").get? "enum" = ms.get? "enum" :=
    get?_swapRemove_of_ne distinct (by decide)
  have inserted (c : Json) : ((ms.swapRemove "const").insertNew "enum" (array [c])).get? "enum" =
      (ms.get? "enum").or (some (array [c])) := by
    rw [get?_insertNew_self, removed]
    cases ms.get? "enum" <;> rfl
  rw [listConst_eq]
  split
  next absent => simp [absent]
  next c given =>
    rw [given, Option.map_some, ← inserted c]
    split
    · exact get?_insertNew_of_ne _ _ (by decide)
    · rfl

theorem distinct_scanFlag (distinct : Distinct s.members) : Distinct (scanFlag s).members := by
  unfold scanFlag
  split
  · exact distinct
  · exact distinct.swapRemove "x-nullable"

theorem get?_scanFlag (distinct : Distinct s.members) (other : key ≠ "x-nullable") :
    (scanFlag s).members.get? key = s.members.get? key := by
  unfold scanFlag
  split
  · rfl
  · exact get?_swapRemove_of_ne distinct (Ne.symm other)

theorem distinct_scanTypes (distinct : Distinct s.members) : Distinct (scanTypes s).members := by
  unfold scanTypes
  split
  · dsimp only
    split
    · exact distinct.swapRemove "type"
    · exact distinct.insert "type" _
    · exact distinct.insert "type" _
  · exact distinct

theorem get?_scanTypes (distinct : Distinct s.members) (other : key ≠ "type") :
    (scanTypes s).members.get? key = s.members.get? key := by
  unfold scanTypes
  split
  · dsimp only
    split
    · exact get?_swapRemove_of_ne distinct (Ne.symm other)
    · exact get?_insert_of_ne _ _ (Ne.symm other)
    · exact get?_insert_of_ne _ _ (Ne.symm other)
  · rfl

theorem isNullName_scanTypes (distinct : Distinct s.members) :
    ((scanTypes s).members.get? "type").any isNullName =
      (s.members.get? "type").any isNullName := by
  unfold scanTypes
  split
  next types found =>
    have notNull : isNullName (array types) = false := rfl
    dsimp only
    split
    next none => simp [get?_swapRemove_self distinct, found, notNull]
    next t one =>
      have kept : t ∈ types.filter fun t => !isNullName t := by simp [one]
      have named : isNullName t = false := by simpa using (List.mem_filter.mp kept).2
      simp [get?_insert_self, found, named, notNull]
    · simp [get?_insert_self, found, isNullName, string?]
  · rfl

def withoutNulls : Json → Json
  | array branches => array (branches.filter fun b => !isNullBranch b)
  | j => j

/-- The branches of a union; there are none if it is not given or no list. -/
def branchList (union : Option Json) : List Json := (union.bind array?).getD []

def admitsNull (union : Option Json) : Bool := (branchList union).any isNullBranch

/-- The one branch that is left of a union when null branches are taken out. -/
def remainder? (union : Option Json) : Option Json :=
  match (branchList union).filter fun b => !isNullBranch b with
  | [only] => if admitsNull union then some only else none
  | _ => none

theorem length_filter_eq_length_iff (branches : List Json) :
    (branches.filter fun b => !isNullBranch b).length = branches.length ↔
      branches.any isNullBranch = false := by
  rw [List.length_filter_eq_length_iff]
  simp

/-- A union is left alone, becomes the whole of an intersection, or loses its null branches. -/
theorem scanUnion_cases (key : String) (s : NullScan) :
    (admitsNull (s.members.get? key) = false ∧ scanUnion key s = s) ∨
    (∃ only, remainder? (s.members.get? key) = some only ∧ scanUnion key s =
      ⟨(s.members.swapRemove key).insert "allOf" (array [only]), true⟩) ∨
    (∃ branches, s.members.get? key = some (array branches) ∧
      admitsNull (s.members.get? key) = true ∧ remainder? (s.members.get? key) = none ∧
      scanUnion key s = ⟨s.members.insert key (withoutNulls (array branches)), true⟩) := by
  unfold scanUnion
  split
  next branches found =>
    have listed : branchList (some (array branches)) = branches := rfl
    have same := length_filter_eq_length_iff branches
    by_cases admits : branches.any isNullBranch = true
    · have fewer : ¬(branches.filter fun b => !isNullBranch b).length = branches.length := by
        simp [same, admits]
      rw [if_neg fewer]
      simp only [found, remainder?, admitsNull, listed, withoutNulls, admits]
      rcases kept : branches.filter fun b => !isNullBranch b with _ | ⟨only, _ | ⟨next, rest⟩⟩
      · exact .inr (.inr ⟨branches, rfl, trivial, rfl, by rw [kept]⟩)
      · exact .inr (.inl ⟨only, rfl, rfl⟩)
      · exact .inr (.inr ⟨branches, rfl, trivial, rfl, by rw [kept]⟩)
    · have none : branches.any isNullBranch = false := by simpa using admits
      rw [if_pos (same.mpr none)]
      exact .inl ⟨by simpa [found, admitsNull, listed] using none, rfl⟩
  next other =>
    refine .inl ⟨?_, rfl⟩
    cases union : s.members.get? key with
    | none => rfl
    | some j =>
      cases j with
      | array branches => exact absurd union (other branches)
      | _ => rfl

theorem remainder?_eq_none (noNull : admitsNull union = false) : remainder? union = none := by
  unfold remainder?
  split
  · simp [noNull]
  · rfl

theorem admitsNull_of_remainder? {only : Json} (left : remainder? union = some only) :
    admitsNull union = true := by
  by_contra noNull
  simp [remainder?_eq_none (by simpa using noNull)] at left

theorem map_withoutNulls_eq_self (noNull : admitsNull union = false) :
    union.map withoutNulls = union := by
  cases union with
  | none => rfl
  | some j =>
    cases j with
    | array branches =>
      have kept : branches.filter (fun b => !isNullBranch b) = branches := by
        rw [List.filter_eq_self]
        simpa [admitsNull, branchList, array?] using noNull
      simp [withoutNulls, kept]
    | _ => rfl

theorem distinct_scanUnion (distinct : Distinct s.members) (key : String) :
    Distinct (scanUnion key s).members := by
  rcases scanUnion_cases key s with ⟨-, same⟩ | ⟨only, -, made⟩ | ⟨branches, -, -, -, made⟩
  · rwa [same]
  · rw [made]
    exact (distinct.swapRemove key).insert "allOf" _
  · rw [made]
    exact distinct.insert key _

theorem get?_scanUnion_self (distinct : Distinct s.members) (notAllOf : key ≠ "allOf") :
    (scanUnion key s).members.get? key =
      if (remainder? (s.members.get? key)).isSome then none
      else (s.members.get? key).map withoutNulls := by
  rcases scanUnion_cases key s with
    ⟨noNull, same⟩ | ⟨only, left, made⟩ | ⟨branches, found, -, left, made⟩
  · simp [same, remainder?_eq_none noNull, map_withoutNulls_eq_self noNull]
  · simp [made, left, get?_insert_of_ne _ _ (Ne.symm notAllOf), get?_swapRemove_self distinct]
  · rw [left, made]
    simp [found, get?_insert_self]

theorem get?_scanUnion_allOf (notAllOf : key ≠ "allOf") :
    (scanUnion key s).members.get? "allOf" =
      ((remainder? (s.members.get? key)).map fun only => array [only]).or
        (s.members.get? "allOf") := by
  rcases scanUnion_cases key s with
    ⟨noNull, same⟩ | ⟨only, left, made⟩ | ⟨branches, -, -, left, made⟩
  · simp [same, remainder?_eq_none noNull]
  · simp [made, left, get?_insert_self]
  · simp [made, left, get?_insert_of_ne _ _ notAllOf]

theorem get?_scanUnion_of_ne (distinct : Distinct s.members) (ne : key ≠ other)
    (notAllOf : other ≠ "allOf") :
    (scanUnion key s).members.get? other = s.members.get? other := by
  rcases scanUnion_cases key s with ⟨-, same⟩ | ⟨only, -, made⟩ | ⟨branches, -, -, -, made⟩
  · rw [same]
  · rw [made]
    exact (get?_insert_of_ne _ _ (Ne.symm notAllOf)).trans (get?_swapRemove_of_ne distinct ne)
  · rw [made]
    exact get?_insert_of_ne _ _ ne

theorem nullable_scanUnion (key : String) (s : NullScan) :
    (scanUnion key s).nullable = (s.nullable || admitsNull (s.members.get? key)) := by
  rcases scanUnion_cases key s with
    ⟨noNull, same⟩ | ⟨only, left, made⟩ | ⟨branches, -, admits, -, made⟩
  · simp [same, noNull]
  · simp [made, admitsNull_of_remainder? left]
  · simp [made, admits]

end Json

end ApiContract

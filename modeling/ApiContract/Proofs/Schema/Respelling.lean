import ApiContract.Proofs.Schema.Loading

/-!
Two spellings of a union with null.

A union can have null among its branches, or be nullable without it (`respelled`). Where more than
one branch is left, both spellings load to the same node. A single branch that is left becomes an
intersection in the first spelling, in place of an intersection that was stated before.
-/

namespace ApiContract

namespace Json

variable {ms : Entries Json} {key : String} {j : Json}

def memberWithoutNulls (key : String) (j : Json) : Json :=
  if key = "oneOf" ∨ key = "anyOf" then j.withoutNulls else j

/-- The schema object without null branches in its unions, and nullable instead. -/
def respelled (ms : Entries Json) : Entries Json :=
  Entries.insert (ms.map fun e => (e.1, memberWithoutNulls e.1 e.2)) "nullable" (bool true)

theorem get?_respelled (other : key ≠ "nullable") :
    (respelled ms).get? key = (ms.get? key).map (memberWithoutNulls key) := by
  rw [respelled, Entries.get?_insert_of_ne _ _ (Ne.symm other), Entries.get?_mapKeyed]

theorem get?_respelled_of_ne (other : key ∉ ["nullable", "oneOf", "anyOf"]) :
    (respelled ms).get? key = ms.get? key := by
  simp only [List.mem_cons, List.not_mem_nil, or_false, not_or] at other
  have kept : memberWithoutNulls key = id := by
    funext j
    simp [memberWithoutNulls, other]
  rw [get?_respelled other.1, kept, Option.map_id_fun, id]

theorem get?_respelled_union (isUnion : IsUnion key) :
    (respelled ms).get? key = (ms.get? key).map withoutNulls := by
  have cleaned : memberWithoutNulls key = withoutNulls := by
    funext j
    cases isUnion <;> simp [memberWithoutNulls]
  rw [get?_respelled (by cases isUnion <;> decide), cleaned]

theorem distinct_respelled (distinct : Entries.Distinct ms) : Entries.Distinct (respelled ms) := by
  apply Entries.Distinct.insert
  rw [Entries.Distinct, Entries.keys_mapKeyed]
  exact distinct

theorem WellKeyed.respelled (wellKeyed : WellKeyed ms) : WellKeyed (Json.respelled ms) where
  distinct := distinct_respelled wellKeyed.distinct
  branches isUnion := by
    rw [get?_respelled_union isUnion, branchList_withoutNulls]
    exact fun branch isLeft => wellKeyed.branches isUnion branch (List.mem_filter.mp isLeft).1

theorem remainder?_withoutNulls (union : Option Json) :
    remainder? (union.map withoutNulls) = none := by
  apply remainder?_eq_none
  rw [admitsNull, branchList_withoutNulls]
  simp

/-- Null branches may be left out before the passes or after them. -/
theorem withoutNulls_normalMember (isUnion : IsUnion key)
    (keyed : ∀ branch ∈ branchList (some j), branch.Keyed) :
    normalMember key j.withoutNulls = (normalMember key j).withoutNulls := by
  cases j with
  | array branches =>
    rw [withoutNulls, normalMember_branches isUnion.mem_branchKeys,
      normalMember_branches isUnion.mem_branchKeys]
    exact congrArg array (filter_map_normalSchema keyed).symm
  | object inner =>
    have isObject : ∃ others, normalMember key (object inner) = object others := by
      cases isUnion <;>
        simp [normalMember, memberWithoutBooleans, dataKeys, withoutConst, withNullable]
    obtain ⟨others, isObject⟩ := isObject
    simp [withoutNulls, isObject]
  | _ => cases isUnion <;> rfl

theorem withoutNulls_eq_null : j.withoutNulls = null ↔ j = null := by
  cases j <;> simp [withoutNulls]

theorem exists_array_of_remainder? {union : Option Json} {only : Json}
    (left : remainder? union = some only) :
    ∃ branches, union = some (array branches) ∧
      branches.filter (fun b => !isNullBranch b) = [only] := by
  unfold remainder? at left
  split at left
  next single kept =>
    obtain ⟨-, rfl⟩ : admitsNull union = true ∧ single = only := by simpa using left
    cases union with
    | none => simp [branchList] at kept
    | some j =>
      cases j with
      | array branches => exact ⟨branches, rfl, kept⟩
      | _ => simp [branchList, array?] at kept
  · simp at left

theorem stated?_ne_none_of_admitsNull (admits : admitsNull (ms.get? key) = true) :
    stated? ms key ≠ none := by
  intro absent
  rcases stated?_eq_none.mp absent with none | isNull
  · simp [none, admitsNull, branchList] at admits
  · simp [isNull, admitsNull, branchList, array?] at admits

theorem withoutNulls_withoutNulls (j : Json) : j.withoutNulls.withoutNulls = j.withoutNulls := by
  cases j <;> simp [withoutNulls]

theorem stated?_respelled_of_ne (distinct : Entries.Distinct ms)
    (other : key ∉ ["const", "enum", "type", "x-nullable", "oneOf", "anyOf", "allOf", "nullable"]) :
    stated? (normalMembers (respelled ms)) key = stated? (normalMembers ms) key := by
  have plainKey : key ∉ ["nullable", "oneOf", "anyOf"] := by simp_all
  rw [stated?_normalMembers (distinct_respelled distinct) other,
    stated?_normalMembers distinct other, stated?, stated?, get?_respelled_of_ne plainKey]

section

variable (wellKeyed : WellKeyed ms)

include wellKeyed

theorem stated?_normalMembers_union (isUnion : IsUnion key)
    (noRemainder : remainder? (ms.get? key) = none) :
    stated? (normalMembers ms) key =
      (stated? ms key).map fun j => (normalMember key j).withoutNulls := by
  apply stated?_eq_map _ fun j => withoutNulls_eq_null.trans normalMember_eq_null
  rw [get?_normalMembers_union wellKeyed isUnion, noRemainder, Option.map_map]
  rfl

/-- What is left of a union is the same in both spellings, unless it became an intersection. -/
theorem stated?_respelled_union (isUnion : IsUnion key) :
    stated? (normalMembers (respelled ms)) key =
      (stated? ms key).map fun j => (normalMember key j).withoutNulls := by
  apply stated?_eq_map _ fun j => withoutNulls_eq_null.trans normalMember_eq_null
  have cleaned : (respelled ms).get? key = _ := get?_respelled_union isUnion
  have keyed := wellKeyed.branches isUnion
  rw [get?_normalMembers_union wellKeyed.respelled isUnion, cleaned, remainder?_withoutNulls]
  cases given : ms.get? key with
  | none => rfl
  | some j =>
    rw [given] at keyed
    simp [withoutNulls_normalMember isUnion keyed, withoutNulls_withoutNulls]

theorem stated?_respelled_of_remainder {only : Json} (isUnion : IsUnion key)
    (left : remainder? (ms.get? key) = some only) :
    stated? (normalMembers (respelled ms)) key = some (array [normalSchema only]) := by
  obtain ⟨branches, given, kept⟩ := exists_array_of_remainder? left
  have isStated : stated? ms key = some (array branches) := stated?_eq_some.mpr ⟨given, by simp⟩
  rw [stated?_respelled_union wellKeyed isUnion, isStated, Option.map_some,
    normalMember_branches isUnion.mem_branchKeys, withoutNulls,
    filter_map_normalSchema (wellKeyed.of_array isUnion given), kept]
  rfl

theorem stated?_normalMembers_allOf
    (noRemainder : (remainder? (ms.get? "anyOf")).or (remainder? (ms.get? "oneOf")) = none) :
    stated? (normalMembers ms) "allOf" = (stated? ms "allOf").map (normalMember "allOf") := by
  apply stated?_eq_map _ fun _ => normalMember_eq_null
  rw [get?_normalMembers_allOf wellKeyed, noRemainder]
  rfl

theorem stated?_normalMembers_allOf_of_remainder {only : Json}
    (left : (remainder? (ms.get? "anyOf")).or (remainder? (ms.get? "oneOf")) = some only) :
    stated? (normalMembers ms) "allOf" = some (array [normalSchema only]) := by
  rw [stated?_eq_some, get?_normalMembers_allOf wellKeyed, left]
  simp

theorem stated?_respelled_allOf :
    stated? (normalMembers (respelled ms)) "allOf" =
      (stated? ms "allOf").map (normalMember "allOf") := by
  have kept : stated? (respelled ms) "allOf" = stated? ms "allOf" := by
    rw [stated?, stated?, get?_respelled_of_ne (by decide)]
  rw [← kept]
  apply stated?_normalMembers_allOf wellKeyed.respelled
  rw [get?_respelled_union .anyOf, get?_respelled_union .oneOf, remainder?_withoutNulls,
    remainder?_withoutNulls]
  rfl

end

end Json

namespace Schema

open Json

variable {ms : Entries Json} {node other : Schema} {shape otherShape : Shape Schema}

theorem Shaped.of_ref {j : Json} (shaped : Shaped ms shape)
    (isStated : stated? ms "$ref" = some j) :
    ∃ target, j = .string target ∧ shape = .ref target := by
  cases shaped with
  | ref found => exact ⟨_, Option.some.inj (isStated.symm.trans found), rfl⟩
  | _ => simp_all

theorem Shaped.of_allOf {j : Json} (shaped : Shaped ms shape) (noRef : stated? ms "$ref" = none)
    (isStated : stated? ms "allOf" = some j) :
    ∃ parts nodes, j = .array parts ∧ shape = .allOf nodes ∧
      LoadsBranches ofNormal parts nodes := by
  cases shaped with
  | allOf _ found branches =>
    exact ⟨_, _, Option.some.inj (isStated.symm.trans found), rfl, branches⟩
  | _ => simp_all

theorem Shaped.of_union {j : Json} (shaped : Shaped ms shape) (noRef : stated? ms "$ref" = none)
    (noAllOf : stated? ms "allOf" = none)
    (isStated : (stated? ms "oneOf").or (stated? ms "anyOf") = some j) :
    ∃ parts nodes, j = .array parts ∧ shape = .oneOf nodes ∧
      LoadsBranches ofNormal parts nodes := by
  cases shaped with
  | oneOf _ _ found branches =>
    exact ⟨_, _, Option.some.inj (isStated.symm.trans found), rfl, branches⟩
  | _ => simp_all

theorem LoadsBranches.unique {load : Json → Except SchemaFault Schema} {parts : List Json}
    {nodes others : List Schema} (first : LoadsBranches load parts nodes)
    (second : LoadsBranches load parts others) : others = nodes := by
  have loaded := Outcome.mapM_eq_ok.mpr first
  rw [Outcome.mapM_eq_ok.mpr second] at loaded
  exact Except.ok.inj loaded

/-- An intersection or a union is made of the keywords for branches. -/
theorem Shaped.alike {others : Entries Json} (shaped : Shaped ms shape)
    (shapedOther : Shaped others otherShape) (noRef : stated? ms "$ref" = none)
    (noRefOther : stated? others "$ref" = none)
    (allOfAlike : stated? others "allOf" = stated? ms "allOf")
    (unionAlike : (stated? others "oneOf").or (stated? others "anyOf") =
      (stated? ms "oneOf").or (stated? ms "anyOf"))
    (present : (stated? ms "oneOf").or (stated? ms "anyOf") ≠ none) : otherShape = shape := by
  cases isAllOf : stated? ms "allOf" with
  | some j =>
    obtain ⟨parts, nodes, rfl, rfl, loads⟩ := shaped.of_allOf noRef isAllOf
    obtain ⟨again, others, sameParts, rfl, loadsOther⟩ :=
      shapedOther.of_allOf noRefOther (allOfAlike.trans isAllOf)
    obtain rfl := Json.array.inj sameParts
    rw [loads.unique loadsOther]
  | none =>
    obtain ⟨j, isUnion⟩ := Option.ne_none_iff_exists'.mp present
    obtain ⟨parts, nodes, rfl, rfl, loads⟩ := shaped.of_union noRef isAllOf isUnion
    obtain ⟨again, others, sameParts, rfl, loadsOther⟩ :=
      shapedOther.of_union noRefOther (allOfAlike.trans isAllOf) (unionAlike.trans isUnion)
    obtain rfl := Json.array.inj sameParts
    rw [loads.unique loadsOther]

/-- A union is left with one branch, which takes the place of an intersection. -/
def Collapses (ms : Entries Json) (only : Json) : Prop :=
  (remainder? (ms.get? "anyOf")).or (remainder? (ms.get? "oneOf")) = some only

/-- The one branch takes the place of a stated intersection, or stands before another union. -/
def Overwrites (ms : Entries Json) : Prop :=
  (∃ only, Collapses ms only ∧ stated? ms "allOf" ≠ none) ∨
    ∃ only, remainder? (ms.get? "anyOf") = some only ∧ stated? ms "oneOf" ≠ none

/-- How the node of a schema object relates to that of its other spelling. -/
inductive Respells (ms : Entries Json) (node other : Schema) : Prop
  | same : (stated? ms "$ref" = none → ∀ only, ¬Collapses ms only) → other = node →
      Respells ms node other
  | collapsed {only inner} : stated? ms "$ref" = none → Collapses ms only →
      ofJson only = .ok inner → node.shape = .allOf [inner] →
      other = { node with shape := .oneOf [inner] } → Respells ms node other

section

variable (wellKeyed : WellKeyed ms)

include wellKeyed

theorem ref_respelled :
    stated? (normalMembers (respelled ms)) "$ref" = stated? (normalMembers ms) "$ref" :=
  stated?_respelled_of_ne wellKeyed.distinct (by decide)

/-- A single branch that is left is the intersection in one spelling and the union in the other. -/
theorem collapsed_respelled {only : Json} (noRef : stated? (normalMembers ms) "$ref" = none)
    (kept : ¬Overwrites ms) (collapses : Collapses ms only)
    (shaped : Shaped (normalMembers ms) shape)
    (shapedOther : Shaped (normalMembers (respelled ms)) otherShape) :
    ∃ inner, ofJson only = .ok inner ∧ shape = .allOf [inner] ∧ otherShape = .oneOf [inner] := by
  have noAllOf : stated? ms "allOf" = none := by
    by_contra present
    exact kept (.inl ⟨only, collapses, present⟩)
  obtain ⟨parts, nodes, single, rfl, branches⟩ := shaped.of_allOf noRef
    (stated?_normalMembers_allOf_of_remainder wellKeyed collapses)
  obtain rfl := Json.array.inj single
  obtain ⟨inner, rfl, loaded⟩ := branches.eq_singleton
  refine ⟨inner, loaded, rfl, ?_⟩
  have union : (stated? (normalMembers (respelled ms)) "oneOf").or
      (stated? (normalMembers (respelled ms)) "anyOf") = some (.array [normalSchema only]) := by
    rcases Option.or_eq_some_iff.mp collapses with ofAnyOf | ⟨-, ofOneOf⟩
    · have noOneOf : stated? ms "oneOf" = none := by
        by_contra present
        exact kept (.inr ⟨only, ofAnyOf, present⟩)
      rw [stated?_respelled_union wellKeyed .oneOf, noOneOf,
        stated?_respelled_of_remainder wellKeyed .anyOf ofAnyOf]
      rfl
    · rw [stated?_respelled_of_remainder wellKeyed .oneOf ofOneOf]
      rfl
  have noAllOfOther : stated? (normalMembers (respelled ms)) "allOf" = none := by
    rw [stated?_respelled_allOf wellKeyed, noAllOf]
    rfl
  obtain ⟨again, others, sameParts, rfl, loads⟩ :=
    shapedOther.of_union ((ref_respelled wellKeyed).trans noRef) noAllOfOther union
  obtain rfl := Json.array.inj sameParts
  rw [branches.unique loads]

variable (hasNull : ∃ key, IsUnion key ∧ admitsNull (ms.get? key) = true)

include hasNull

/-- A union with null among its branches is stated in both spellings, and alike, where the passes
make no intersection of it. -/
theorem union_respelled
    (noRemainder : (remainder? (ms.get? "anyOf")).or (remainder? (ms.get? "oneOf")) = none) :
    (stated? (normalMembers (respelled ms)) "oneOf").or
        (stated? (normalMembers (respelled ms)) "anyOf") =
      (stated? (normalMembers ms) "oneOf").or (stated? (normalMembers ms) "anyOf") ∧
      (stated? (normalMembers ms) "oneOf").or (stated? (normalMembers ms) "anyOf") ≠ none := by
  obtain ⟨noAnyOf, noOneOf⟩ := Option.or_eq_none_iff.mp noRemainder
  have oneOf := stated?_normalMembers_union wellKeyed .oneOf noOneOf
  have anyOf := stated?_normalMembers_union wellKeyed .anyOf noAnyOf
  refine ⟨?_, fun absent => ?_⟩
  · rw [oneOf, anyOf, stated?_respelled_union wellKeyed .oneOf,
      stated?_respelled_union wellKeyed .anyOf]
  · obtain ⟨noneOneOf, noneAnyOf⟩ := Option.or_eq_none_iff.mp absent
    rw [oneOf, Option.map_eq_none_iff] at noneOneOf
    rw [anyOf, Option.map_eq_none_iff] at noneAnyOf
    obtain ⟨key, isUnion, admits⟩ := hasNull
    cases isUnion with
    | oneOf => exact stated?_ne_none_of_admitsNull admits noneOneOf
    | anyOf => exact stated?_ne_none_of_admitsNull admits noneAnyOf

theorem flags_respelled (reads : Reads (normalMembers ms) node)
    (readsOther : Reads (normalMembers (respelled ms)) other) :
    other = { node with shape := other.shape } := by
  have distinct := wellKeyed.distinct
  have nullable : node.nullable = true := by
    obtain ⟨key, isUnion, admits⟩ := hasNull
    rw [reads.nullable, get?_normalMembers_nullable_of_admitsNull wellKeyed isUnion admits]
    rfl
  have nullableOther : other.nullable = true := by
    rw [readsOther.nullable]
    rcases get?_normalMembers_nullable (distinct_respelled distinct) with found | found
    · rw [found]
      rfl
    · rw [found, respelled, Entries.get?_insert_self]
      rfl
  have readOnly : other.readOnly = node.readOnly := by
    rw [readsOther.readOnly, reads.readOnly,
      get?_normalMembers (distinct_respelled distinct) (by decide),
      get?_normalMembers distinct (by decide), get?_respelled_of_ne (by decide)]
  have default? : other.default? = node.default? := by
    rw [readsOther.default?, reads.default?, stated?_respelled_of_ne distinct (by decide)]
  obtain ⟨_, _, _, _⟩ := node
  obtain ⟨_, _, _, _⟩ := other
  simp_all

/-- Where no intersection is overwritten the spellings differ by a union of one branch at most. -/
theorem respells_of_ofJson (kept : stated? ms "$ref" = none → ¬Overwrites ms)
    (loaded : ofJson (.object ms) = .ok node)
    (loadedOther : ofJson (.object (respelled ms)) = .ok other) : Respells ms node other := by
  rw [ofJson, normalSchema_object] at loaded loadedOther
  have reads := reads_of_ofNormal loaded
  have readsOther := reads_of_ofNormal loadedOther
  have flags := flags_respelled wellKeyed hasNull reads readsOther
  have same (apart : stated? ms "$ref" = none → ∀ only, ¬Collapses ms only)
      (shapes : other.shape = node.shape) : Respells ms node other := by
    rw [shapes] at flags
    exact .same apart (flags.trans (by cases node; rfl))
  have refAlike := ref_respelled wellKeyed
  have refNormal : stated? (normalMembers ms) "$ref" = (stated? ms "$ref").map _ :=
    stated?_normalMembers wellKeyed.distinct (by decide)
  cases isRef : stated? (normalMembers ms) "$ref" with
  | some j =>
    obtain ⟨target, rfl, shape⟩ := reads.shaped.of_ref isRef
    obtain ⟨again, sameTarget, shapeOther⟩ := readsOther.shaped.of_ref (refAlike.trans isRef)
    rw [Json.string.inj sameTarget] at shape
    refine same (fun noRef => ?_) (shapeOther.trans shape.symm)
    rw [refNormal, noRef] at isRef
    cases isRef
  | none =>
    have noRef : stated? ms "$ref" = none := by
      rwa [refNormal, Option.map_eq_none_iff] at isRef
    cases left : (remainder? (ms.get? "anyOf")).or (remainder? (ms.get? "oneOf")) with
    | some only =>
      obtain ⟨inner, isInner, shape, shapeOther⟩ :=
        collapsed_respelled wellKeyed isRef (kept noRef) left reads.shaped readsOther.shaped
      exact .collapsed noRef left isInner shape (shapeOther ▸ flags)
    | none =>
      obtain ⟨unionAlike, present⟩ := union_respelled wellKeyed hasNull left
      refine same (fun _ only collapses => by simp [Collapses, left] at collapses)
        (reads.shaped.alike readsOther.shaped isRef (refAlike.trans isRef) ?_ unionAlike present)
      rw [stated?_respelled_allOf wellKeyed, stated?_normalMembers_allOf wellKeyed left]

end

theorem ofJson_flagged {key : String} (isUnion : IsUnion key) {parts : List Json}
    (keyed : ∀ branch ∈ parts, branch.Keyed)
    (noNull : ∀ branch ∈ parts, isNullBranch branch = false) :
    ofJson (withBranches key parts true) =
      (fun nodes => (oneOf nodes).asNullable) <$> parts.mapM ofJson := by
  have isBranchKey := isUnion.mem_branchKeys
  have listed : listedMembers [(key, .array parts), ("nullable", .bool true)] =
      [(key, .array (parts.map normalSchema)), ("nullable", .bool true)] := by
    rw [listedMembers_eq_map (by cases isUnion <;> rfl)]
    simp only [List.map_cons, List.map_nil, normalMember_branches isBranchKey]
    rfl
  have stillNoNull : ((parts.map normalSchema).filter fun b => !isNullBranch b).length =
      (parts.map normalSchema).length := by
    rw [length_filter_eq_length_iff, any_map_normalSchema keyed, List.any_eq_false]
    simpa using noNull
  have normal : normalSchema (withBranches key parts true) =
      withBranches key (parts.map normalSchema) true := by
    rw [withBranches, if_pos rfl, normalSchema_object, normalMembers, listed]
    cases isUnion <;>
      simp [flagNull, scanFlag, scanTypes, scanUnion, Entries.get?, withBranches, stillNoNull]
  rw [ofJson, normal, ofNormal_withBranches isBranchKey, List.mapM_map]
  simp only [isUnion.ne_allOf, if_false]
  rfl

theorem ofNormal_allOf_beside_union (parts others : List Json) :
    ofNormal (.object [("allOf", .array parts), ("oneOf", .array others),
        ("nullable", .bool true)]) =
      (fun nodes => (allOf nodes).asNullable) <$> parts.mapM ofNormal := by
  have inside : ∀ e ∈ [("allOf", Json.array parts), ("oneOf", .array others),
      ("nullable", .bool true)], sizeOf e.2 < sizeOf (Json.object [("allOf", .array parts),
        ("oneOf", .array others), ("nullable", .bool true)]) :=
    fun _ => sizeOf_lt_of_mem_members
  rw [ofNormal_of_readFrom (k := { Keywords.blank with
    allOf := partItems ⟨.array parts, inside ("allOf", .array parts) (by simp)⟩
    oneOf := partItems ⟨.array others, inside ("oneOf", .array others) (by simp)⟩
    nullable := true }) rfl (by constructor <;> rfl)]
  simp [ofNormal.shapeOf, Keywords.blank, partItems, allOf, plain, asNullable]

end Schema

end ApiContract

import ApiContract.Proofs.Schema.Shapes
import ApiContract.Proofs.Schema.Unions

/-!
The nested places of a loaded schema.

The nodes at the nested places of a loaded schema are what the JSON at those places loads to on its
own (`Composed`). A map of property names is the exception: the passes take it for a schema object,
so a name that is also a keyword they act on changes what its schema is loaded as.
-/

namespace ApiContract

namespace Json

variable {ms : Entries Json} {key : String} {j : Json}

theorem withoutBooleans_eq_null : j.withoutBooleans = null ↔ j = null := by
  cases j with
  | bool accepts => cases accepts <;> simp [withoutBooleans, never]
  | _ => simp [withoutBooleans]

theorem normalMember_eq_null : normalMember key j = null ↔ j = null := by
  have constants (j : Json) : j.withoutConst.withNullable = null ↔ j = null := by
    cases j <;> simp [withoutConst, withNullable]
  have member : memberWithoutBooleans key j = null ↔ j = null := by
    unfold memberWithoutBooleans
    split
    · split
      · simp
      · split <;> simp [withoutBooleans]
    · split <;> simp
    · split
      · exact withoutBooleans_eq_null
      · rfl
  unfold normalMember
  split
  · exact member
  · rw [constants, member]

theorem stated?_eq_map {others : Entries Json} {f : Json → Json}
    (same : others.get? key = (ms.get? key).map f) (null_iff : ∀ j, f j = null ↔ j = null) :
    stated? others key = (stated? ms key).map f := by
  unfold stated?
  rw [same]
  cases ms.get? key with
  | none => rfl
  | some j =>
    by_cases isNull : j = null
    · subst isNull
      simp [(null_iff null).mpr rfl]
    · have other : f j ≠ null := mt (null_iff j).mp isNull
      simp only [Option.map_some]
      split
      next same => exact absurd (Option.some.inj same) other
      · split
        next same => exact absurd (Option.some.inj same) isNull
        · rfl

theorem stated?_normalMembers (distinct : Entries.Distinct ms)
    (other : key ∉ ["const", "enum", "type", "x-nullable", "oneOf", "anyOf", "allOf", "nullable"]) :
    stated? (normalMembers ms) key = (stated? ms key).map (normalMember key) :=
  stated?_eq_map (get?_normalMembers distinct other) fun _ => normalMember_eq_null

theorem normalMember_items (j : Json) : normalMember "items" j = normalSchema j := by
  cases j <;> simp [normalMember, memberWithoutBooleans, dataKeys, branchKeys, normalSchema,
    withoutBooleans]

theorem normalMember_additional (j : Json) :
    (∃ flag, j = bool flag ∧ normalMember "additionalProperties" j = bool flag) ∨
      (∀ flag, j ≠ bool flag) ∧ (∀ flag, normalSchema j ≠ bool flag) ∧
        normalMember "additionalProperties" j = normalSchema j := by
  cases j with
  | bool flag => exact .inl ⟨flag, rfl, rfl⟩
  | _ =>
    refine .inr ⟨by simp, ?_, ?_⟩ <;>
      simp [normalMember, memberWithoutBooleans, dataKeys, branchKeys, normalSchema,
        withoutBooleans, withoutConst, withNullable]

theorem exists_array_of_normalMember {key : String} {items : List Json}
    (isBranchKey : key ∈ branchKeys) (isList : normalMember key j = array items) :
    ∃ others, j = array others ∧ items = others.map normalSchema := by
  have lists := array?_normalMember isBranchKey j
  rw [isList] at lists
  obtain ⟨others, isArray, same⟩ := Option.map_eq_some_iff.mp lists.symm
  exact ⟨others, eq_array_of_array? isArray, same.symm⟩

theorem exists_array_of_withoutNulls {items : List Json} (isList : j.withoutNulls = array items) :
    ∃ others, j = array others ∧ items = others.filter fun b => !isNullBranch b := by
  cases j with
  | array others => exact ⟨others, rfl, (Json.array.inj isList).symm⟩
  | _ => simp [withoutNulls] at isList

theorem exists_object_of_normalMember {key : String} {ps : Entries Json}
    (isObject : normalMember key j = object ps) (notItems : key ≠ "items") :
    ∃ others, j = object others := by
  have constants {j : Json} (isObject : j.withoutConst.withNullable = object ps) :
      ∃ others, j = object others := by
    cases j <;> simp_all [withoutConst, withNullable]
  have member {j : Json} {ps : Entries Json} (isObject : memberWithoutBooleans key j = object ps) :
      ∃ others, j = object others := by
    cases j with
    | object others => exact ⟨others, rfl⟩
    | array items =>
      by_cases isBranchKey : key ∈ branchKeys <;>
        simp [memberWithoutBooleans, isBranchKey] at isObject
    | _ => simp [memberWithoutBooleans, notItems] at isObject
  unfold normalMember at isObject
  split at isObject
  · exact member isObject
  · obtain ⟨others, made⟩ := constants isObject
    exact member made

/-- The names that the passes take for keywords, and act on. -/
def Ordinary (name : String) (j : Json) : Prop :=
  name ∉ dataKeys ∧ name ≠ "x-nullable" ∧
    (name ∈ ["type", "oneOf", "anyOf"] → ∀ items, j ≠ array items)

theorem exists_array_of_normalSchema {items : List Json} (isList : normalSchema j = array items) :
    ∃ others, j = array others := by
  cases j with
  | array others => exact ⟨others, rfl⟩
  | bool accepts => cases accepts <;> simp [normalSchema, withoutBooleans, never, withoutConst,
      withNullable] at isList
  | _ => simp [normalSchema, withoutBooleans, withoutConst, withNullable] at isList

theorem normalMember_properties {ps : List (String × Json)}
    (ordinary : ∀ e ∈ ps, Ordinary e.1 e.2) :
    normalMember "properties" (object ps) = object (ps.map fun e => (e.1, normalSchema e.2)) := by
  have schemas (f g : Json → Json) :
      (ps.map fun e => (e.1, g e.2)).map (fun e => (e.1, if e.1 ∈ dataKeys then e.2 else f e.2)) =
        ps.map fun e => (e.1, f (g e.2)) := by
    rw [List.map_map]
    refine List.map_congr_left fun e isEntry => ?_
    simp [(ordinary e isEntry).1]
  have absent (f : Json → Json) {name : String} (reserved : ∀ e ∈ ps, e.1 ≠ name) :
      Entries.get? (ps.map fun e => (e.1, f e.2)) name = none := by
    apply Entries.get?_eq_none
    intro e membership
    obtain ⟨given, isEntry, rfl⟩ := List.mem_map.mp membership
    exact reserved given isEntry
  have constants : membersWithoutConst (valuesWithoutBooleans ps) =
      ps.map fun e => (e.1, withoutConst (withoutBooleans e.2)) := by
    rw [membersWithoutConst_eq, valuesWithoutBooleans_eq, schemas]
  have listed : listConst (membersWithoutConst (valuesWithoutBooleans ps)) =
      ps.map fun e => (e.1, withoutConst (withoutBooleans e.2)) := by
    rw [constants]
    apply listConst_eq_self
    refine absent (fun j => withoutConst (withoutBooleans j)) fun e isEntry name => ?_
    exact (ordinary e isEntry).1 (by simp [name, dataKeys])
  have flagged : membersWithNullable (listConst (membersWithoutConst (valuesWithoutBooleans ps))) =
      ps.map fun e => (e.1, normalSchema e.2) := by
    rw [listed, membersWithNullable_eq]
    exact schemas withNullable fun j => withoutConst (withoutBooleans j)
  have isSchemaKey : "properties" ∉ dataKeys := by decide
  simp only [normalMember, isSchemaKey, if_false, memberWithoutBooleans, if_true, withoutConst,
    withNullable]
  rw [flagged, flagNull_eq_self]
  · exact absent normalSchema fun e isEntry => (ordinary e isEntry).2.1
  · intro key isKey items found
    obtain ⟨⟨name, j⟩, isEntry, same⟩ := List.mem_map.mp (Entries.mem_of_get?_eq_some found)
    obtain ⟨rfl, isList⟩ := Prod.mk.inj same
    obtain ⟨others, rfl⟩ := exists_array_of_normalSchema isList
    exact (ordinary _ isEntry).2.2 isKey others rfl

end Json

namespace Schema

open Json

variable {ms : Entries Json} {node : Schema} {shape : Shape Schema}

/-- The nested nodes of a loaded shape are what the JSON at their places loads to on its own. Of a
union the null branches are left out, and one branch that is left counts as an intersection. -/
inductive Composed (ms : Entries Json) : Shape Schema → Prop
  | ref {target} : stated? ms "$ref" = some (.string target) → Composed ms (.ref target)
  | allOf {parts nodes} : stated? ms "allOf" = some (.array parts) →
      LoadsBranches ofJson parts nodes → Composed ms (.allOf nodes)
  | remainder {key only node} : IsUnion key → remainder? (ms.get? key) = some only →
      ofJson only = .ok node → Composed ms (.allOf [node])
  | oneOf {key parts nodes} : IsUnion key →
      stated? ms key = some (.array parts) →
      LoadsBranches ofJson (parts.filter fun b => !isNullBranch b) nodes →
      Composed ms (.oneOf nodes)
  | array {rule} : LoadsItems ofJson ms rule.items → Composed ms (.array rule)
  | object {rule} :
      ((∀ ps, stated? ms "properties" = some (.object ps) → ∀ e ∈ ps, Ordinary e.1 e.2) →
        LoadsProperties ofJson ms rule.properties) →
      LoadsAdditional ofJson ms rule.additional → Composed ms (.object rule)
  | leaf {other} : other.IsLeaf → Composed ms other

theorem loadsBranches_map {parts : List Json} {nodes : List Schema} :
    LoadsBranches ofNormal (parts.map normalSchema) nodes ↔ LoadsBranches ofJson parts nodes := by
  rw [LoadsBranches, List.forall₂_map_left_iff]
  rfl

section

variable (distinct : Entries.Distinct ms)

include distinct

theorem loadsItems_of_normalMembers {items : Schema}
    (loads : LoadsItems ofNormal (normalMembers ms) items) : LoadsItems ofJson ms items := by
  unfold LoadsItems at *
  rw [stated?_normalMembers distinct (by decide)] at loads
  cases stands : stated? ms "items" with
  | none => simpa [stands] using loads
  | some j =>
    rw [stands, Option.map_some, normalMember_items] at loads
    exact loads

theorem loadsProperties_of_normalMembers {properties : List (String × Schema)}
    (loads : LoadsProperties ofNormal (normalMembers ms) properties)
    (ordinary : ∀ ps, stated? ms "properties" = some (.object ps) → ∀ e ∈ ps, Ordinary e.1 e.2) :
    LoadsProperties ofJson ms properties := by
  unfold LoadsProperties at *
  rw [stated?_normalMembers distinct (by decide)] at loads
  cases stands : stated? ms "properties" with
  | none => simpa [stands] using loads
  | some j =>
    rw [stands] at loads
    obtain ⟨qs, isObject, related⟩ := loads
    obtain ⟨ps, rfl⟩ := exists_object_of_normalMember isObject (by decide)
    rw [normalMember_properties (ordinary ps stands)] at isObject
    obtain rfl := Json.object.inj isObject
    exact ⟨ps, rfl, List.forall₂_map_left_iff.mp related⟩

theorem loadsAdditional_of_normalMembers {additional : Additional Schema}
    (loads : LoadsAdditional ofNormal (normalMembers ms) additional) :
    LoadsAdditional ofJson ms additional := by
  unfold LoadsAdditional at *
  rw [stated?_normalMembers distinct (by decide)] at loads
  cases additional with
  | unset => simpa using loads
  | allowed flag =>
    obtain ⟨j, isStated, same⟩ := Option.map_eq_some_iff.mp loads
    rcases normalMember_additional j with ⟨other, rfl, isFlag⟩ | ⟨-, stillNot, isSchema⟩
    · exact isStated.trans (congrArg some (isFlag.symm.trans same))
    · exact absurd (isSchema.symm.trans same) (stillNot flag)
  | schema node =>
    obtain ⟨_, isMember, notFlag, isNode⟩ := loads
    obtain ⟨j, isStated, rfl⟩ := Option.map_eq_some_iff.mp isMember
    rcases normalMember_additional j with ⟨flag, -, isFlag⟩ | ⟨neverFlag, -, isSchema⟩
    · exact absurd isFlag (notFlag flag)
    · rw [isSchema] at isNode
      exact ⟨j, isStated, neverFlag, isNode⟩

theorem reference_of_normalMembers {target : String}
    (isStated : stated? (normalMembers ms) "$ref" = some (.string target)) :
    stated? ms "$ref" = some (.string target) := by
  rw [stated?_normalMembers distinct (by decide)] at isStated
  obtain ⟨j, isStated, same⟩ := Option.map_eq_some_iff.mp isStated
  rw [isStated]
  cases j <;>
    simp_all [normalMember, memberWithoutBooleans, dataKeys, branchKeys, withoutConst, withNullable]

end

section

variable (wellKeyed : WellKeyed ms)

include wellKeyed

theorem composed_of_allOf {parts : List Json} {nodes : List Schema}
    (isStated : stated? (normalMembers ms) "allOf" = some (.array parts))
    (branches : LoadsBranches ofNormal parts nodes) : Composed ms (.allOf nodes) := by
  have found := (stated?_eq_some.mp isStated).1
  rw [get?_normalMembers_allOf wellKeyed] at found
  have single {key : String} {only : Json} (isUnion : IsUnion key)
      (left : remainder? (ms.get? key) = some only) (same : [normalSchema only] = parts) :
      Composed ms (.allOf nodes) := by
    subst same
    obtain ⟨node, rfl, isNode⟩ := branches.eq_singleton
    exact .remainder isUnion left isNode
  cases ofAnyOf : remainder? (ms.get? "anyOf") with
  | some only => exact single .anyOf ofAnyOf (by simpa [ofAnyOf] using found)
  | none =>
    cases ofOneOf : remainder? (ms.get? "oneOf") with
    | some only => exact single .oneOf ofOneOf (by simpa [ofAnyOf, ofOneOf] using found)
    | none =>
      simp only [ofAnyOf, ofOneOf, Option.or_none, Option.elim_none] at found
      obtain ⟨j, given, same⟩ := Option.map_eq_some_iff.mp found
      obtain ⟨own, rfl, rfl⟩ := exists_array_of_normalMember (by decide) same
      exact .allOf (stated?_eq_some.mpr ⟨given, by simp⟩) (loadsBranches_map.mp branches)

theorem composed_of_union {key : String} {parts : List Json} {nodes : List Schema}
    (isUnion : IsUnion key) (isStated : stated? (normalMembers ms) key = some (.array parts))
    (branches : LoadsBranches ofNormal parts nodes) : Composed ms (.oneOf nodes) := by
  have found := (stated?_eq_some.mp isStated).1
  rw [get?_normalMembers_union wellKeyed isUnion] at found
  split at found
  · simp at found
  rw [Option.map_map] at found
  obtain ⟨j, given, same⟩ := Option.map_eq_some_iff.mp found
  obtain ⟨qs, isList, rfl⟩ := exists_array_of_withoutNulls same
  obtain ⟨own, rfl, rfl⟩ := exists_array_of_normalMember isUnion.mem_branchKeys isList
  rw [filter_map_normalSchema (wellKeyed.of_array isUnion given)] at branches
  exact .oneOf isUnion (stated?_eq_some.mpr ⟨given, by simp⟩) (loadsBranches_map.mp branches)

theorem composed_of_ofJson (loaded : ofJson (.object ms) = .ok node) : Composed ms node.shape := by
  rw [ofJson, normalSchema_object] at loaded
  have distinct := wellKeyed.distinct
  have shaped := (reads_of_ofNormal loaded).shaped
  generalize node.shape = shape at shaped
  cases shaped with
  | ref isStated => exact .ref (reference_of_normalMembers distinct isStated)
  | allOf _ isStated branches => exact composed_of_allOf wellKeyed isStated branches
  | oneOf _ _ isStated branches =>
    rcases Option.or_eq_some_iff.mp isStated with isOneOf | ⟨-, isAnyOf⟩
    · exact composed_of_union wellKeyed .oneOf isOneOf branches
    · exact composed_of_union wellKeyed .anyOf isAnyOf branches
  | array _ _ _ items => exact .array (loadsItems_of_normalMembers distinct items)
  | object _ _ _ properties additional =>
    exact .object (loadsProperties_of_normalMembers distinct properties)
      (loadsAdditional_of_normalMembers distinct additional)
  | leaf _ _ _ isLeaf => exact .leaf isLeaf

end

end Schema

end ApiContract

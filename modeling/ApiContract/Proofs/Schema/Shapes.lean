import ApiContract.Proofs.Schema.Keywords

/-!
The shape of a schema object in normal form.

The keywords are looked at in a fixed order: references, intersections, unions, and the type last.
`Shaped` says for each shape what has to be stated for it.
-/

namespace ApiContract

inductive Shape.IsLeaf : Shape Schema → Prop
  | string {rule} : IsLeaf (.string rule)
  | number {rule} : IsLeaf (.number rule)
  | boolean : IsLeaf .boolean
  | any : IsLeaf .any
  | unknown {raw} : IsLeaf (.unknown raw)

namespace Schema

open Json

section

variable (load : Json → Except SchemaFault Schema) (ms : Entries Json)

def LoadsItems (items : Schema) : Prop :=
  match stated? ms "items" with
  | none => items = .any
  | some j => load j = .ok items

def LoadsProperties (properties : List (String × Schema)) : Prop :=
  match stated? ms "properties" with
  | none => properties = []
  | some j => ∃ ps, j = .object ps ∧
      List.Forall₂ (fun e p => p.1 = e.1 ∧ load e.2 = .ok p.2) ps properties

def LoadsAdditional (additional : Additional Schema) : Prop :=
  match additional with
  | .unset => stated? ms "additionalProperties" = none
  | .allowed flag => stated? ms "additionalProperties" = some (.bool flag)
  | .schema node => ∃ j, stated? ms "additionalProperties" = some j ∧ (∀ flag, j ≠ .bool flag) ∧
      load j = .ok node

def LoadsBranches (parts : List Json) (nodes : List Schema) : Prop :=
  List.Forall₂ (fun j node => load j = .ok node) parts nodes

end

variable {ms : Entries Json} {node : Schema} {shape : Shape Schema}

/-- The shape of a schema object in normal form, by what is stated in it. -/
inductive Shaped (ms : Entries Json) : Shape Schema → Prop
  | ref {target} : stated? ms "$ref" = some (.string target) → Shaped ms (.ref target)
  | allOf {parts nodes} : stated? ms "$ref" = none → stated? ms "allOf" = some (.array parts) →
      LoadsBranches ofNormal parts nodes → Shaped ms (.allOf nodes)
  | oneOf {parts nodes} : stated? ms "$ref" = none → stated? ms "allOf" = none →
      (stated? ms "oneOf").or (stated? ms "anyOf") = some (.array parts) →
      LoadsBranches ofNormal parts nodes → Shaped ms (.oneOf nodes)
  | array {rule} : stated? ms "$ref" = none → stated? ms "allOf" = none →
      (stated? ms "oneOf").or (stated? ms "anyOf") = none →
      LoadsItems ofNormal ms rule.items → Shaped ms (.array rule)
  | object {rule} : stated? ms "$ref" = none → stated? ms "allOf" = none →
      (stated? ms "oneOf").or (stated? ms "anyOf") = none →
      LoadsProperties ofNormal ms rule.properties →
      LoadsAdditional ofNormal ms rule.additional → Shaped ms (.object rule)
  | leaf {other} : stated? ms "$ref" = none → stated? ms "allOf" = none →
      (stated? ms "oneOf").or (stated? ms "anyOf") = none → other.IsLeaf → Shaped ms other

/-- How a schema object in normal form is read. -/
structure Reads (ms : Entries Json) (node : Schema) : Prop where
  shaped : Shaped ms node.shape
  nullable : node.nullable = ((ms.get? "nullable").bind bool?).getD false
  readOnly : node.readOnly = ((ms.get? "readOnly").bind bool?).getD false
  default? : node.default? = (stated? ms "default").map Value.ofJson

theorem ofNormal_of_readFrom {raw : Json} {given : List (String × Part raw)} {k : Keywords raw}
    (isGiven : Keywords.given? raw = some given) (isRead : k.ReadFrom given) :
    ofNormal raw =
      (fun shape => {
        shape
        nullable := k.nullable
        readOnly := k.readOnly
        default? := k.default?.map Value.ofJson }) <$> ofNormal.shapeOf k := by
  rw [ofNormal, Keywords.ofJson?_eq_some_iff.mpr ⟨given, isGiven, isRead⟩]
  rfl

theorem loadsBranches_of_parts {k : List (Part (.object ms))} {nodes : List Schema}
    (loaded : (k.mapM fun p => ofNormal p.json) = .ok nodes) :
    LoadsBranches ofNormal (k.map Part.json) nodes := by
  rw [LoadsBranches, List.forall₂_map_left_iff]
  exact Outcome.mapM_eq_ok.mp loaded

theorem LoadsBranches.eq_singleton {load : Json → Except SchemaFault Schema} {only : Json}
    {nodes : List Schema} (loads : LoadsBranches load [only] nodes) :
    ∃ inner, nodes = [inner] ∧ load only = .ok inner := by
  obtain ⟨inner, rest, isNode, others, rfl⟩ := List.forall₂_cons_left_iff.mp loads
  obtain rfl := List.forall₂_nil_left_iff.mp others
  exact ⟨inner, rfl, isNode⟩

theorem loadsProperties_of_keywords {k : Keywords (.object ms)}
    {properties : List (String × Schema)} (reads : k.Reads ms)
    (loaded : ((k.properties.getD []).mapM fun p => do
      let node ← ofNormal p.2.json
      return (p.1, node)) = .ok properties) : LoadsProperties ofNormal ms properties := by
  unfold LoadsProperties
  have stands := reads.properties
  cases given : k.properties with
  | none =>
    rw [given, Option.map_none, Option.map_eq_none_iff] at stands
    simpa [given, stands, pure, Except.pure, eq_comm] using loaded
  | some ps =>
    rw [given, Option.map_some, Option.map_eq_some_iff] at stands
    obtain ⟨j, isStated, isObject⟩ := stands
    rw [isStated]
    refine ⟨ps.map fun e => (e.1, e.2.json), eq_object_of_object? isObject, ?_⟩
    rw [given] at loaded
    rw [List.forall₂_map_left_iff]
    refine (Outcome.mapM_eq_ok.mp loaded).imp fun e p made => ?_
    obtain ⟨node, isNode, same⟩ := Outcome.bind_eq_ok.mp made
    obtain rfl := Outcome.pure_eq_ok.mp same
    exact ⟨rfl, isNode⟩

theorem stated?_union_of_keywords {k : Keywords (.object ms)} (reads : k.Reads ms) :
    ((stated? ms "oneOf").or (stated? ms "anyOf")).map array? =
      (k.oneOf.or k.anyOf).map fun ps => some (ps.map Part.json) := by
  rw [Option.map_or, reads.oneOf, reads.anyOf, Option.map_or]

/-- The shape that the type keyword and its neighbours describe where there are no branches. -/
theorem shaped_of_typed {k : Keywords (.object ms)} (reads : k.Reads ms)
    (noReference : k.reference = none) (noAllOf : k.allOf = none)
    (noUnion : k.oneOf.or k.anyOf = none) (loaded : ofNormal.shapeOf k = .ok shape) :
    Shaped ms shape := by
  have noRef : stated? ms "$ref" = none := by
    simpa [noReference] using reads.reference
  have noParts : stated? ms "allOf" = none := by
    simpa [noAllOf] using reads.allOf
  have noBranches : (stated? ms "oneOf").or (stated? ms "anyOf") = none := by
    have union := stated?_union_of_keywords reads
    rwa [noUnion, Option.map_none, Option.map_eq_none_iff] at union
  have leaf (isLeaf : shape.IsLeaf) : Shaped ms shape := .leaf noRef noParts noBranches isLeaf
  have inOrder : (k.oneOf <|> k.anyOf) = k.oneOf.or k.anyOf := by cases k.oneOf <;> rfl
  rw [ofNormal.shapeOf] at loaded
  simp only [noReference, noAllOf, inOrder, noUnion] at loaded
  split at loaded
  · obtain rfl := Except.ok.inj loaded
    exact leaf .unknown
  · obtain rfl := Except.ok.inj loaded
    exact leaf (by split <;> constructor)
  · obtain ⟨rule, -, made⟩ := Outcome.bind_eq_ok.mp loaded
    obtain rfl := Outcome.pure_eq_ok.mp made
    exact leaf .string
  · obtain rfl := Except.ok.inj loaded
    exact leaf .number
  · obtain rfl := Except.ok.inj loaded
    exact leaf .number
  · obtain rfl := Except.ok.inj loaded
    exact leaf .boolean
  · have items := reads.items
    cases given : k.items with
    | none =>
      simp only [given] at loaded
      obtain rfl := Outcome.pure_eq_ok.mp loaded
      refine .array noRef noParts noBranches ?_
      simp only [LoadsItems, items, given, Option.map_none]
    | some p =>
      simp only [given] at loaded
      obtain ⟨node, isNode, made⟩ := Outcome.bind_eq_ok.mp loaded
      obtain rfl := Outcome.pure_eq_ok.mp made
      refine .array noRef noParts noBranches ?_
      simpa only [LoadsItems, items, given, Option.map_some] using isNode
  · obtain ⟨properties, areProperties, rest⟩ := Outcome.bind_eq_ok.mp loaded
    have declared := loadsProperties_of_keywords reads areProperties
    have additional := reads.additional
    split at rest
    next given =>
      obtain rfl := Outcome.pure_eq_ok.mp rest
      refine .object noRef noParts noBranches declared ?_
      simp only [LoadsAdditional, additional, given, Option.map_none]
    next flag inside given =>
      obtain rfl := Outcome.pure_eq_ok.mp rest
      refine .object noRef noParts noBranches declared ?_
      simp only [LoadsAdditional, additional, given, Option.map_some]
    next p notFlag given =>
      obtain ⟨node, isNode, made⟩ := Outcome.bind_eq_ok.mp rest
      obtain rfl := Outcome.pure_eq_ok.mp made
      refine .object noRef noParts noBranches declared ?_
      refine ⟨p.json, by simp only [additional, given, Option.map_some], ?_, isNode⟩
      intro flag isFlag
      obtain ⟨_, inside⟩ := p
      subst isFlag
      exact notFlag flag inside rfl
  · obtain rfl := Except.ok.inj loaded
    exact leaf .unknown

theorem shaped_of_shapeOf {k : Keywords (.object ms)} (reads : k.Reads ms)
    (loaded : ofNormal.shapeOf k = .ok shape) : Shaped ms shape := by
  have reference := reads.reference
  have allOf := reads.allOf
  have union := stated?_union_of_keywords reads
  have inOrder : (k.oneOf <|> k.anyOf) = k.oneOf.or k.anyOf := by cases k.oneOf <;> rfl
  cases hasReference : k.reference with
  | some target =>
    rw [ofNormal.shapeOf, hasReference] at loaded
    rw [hasReference] at reference
    obtain ⟨j, isStated, isText⟩ := Option.map_eq_some_iff.mp reference
    obtain rfl := Except.ok.inj loaded
    cases j with
    | string s =>
      obtain rfl := Option.some.inj isText
      exact .ref isStated
    | _ => simp [string?] at isText
  | none =>
    rw [hasReference, Option.map_none, Option.map_eq_none_iff] at reference
    cases hasAllOf : k.allOf with
    | some parts =>
      rw [ofNormal.shapeOf, hasReference, hasAllOf] at loaded
      rw [hasAllOf] at allOf
      obtain ⟨j, isStated, isList⟩ := Option.map_eq_some_iff.mp allOf
      obtain ⟨nodes, branches, made⟩ := Outcome.bind_eq_ok.mp loaded
      obtain rfl := Outcome.pure_eq_ok.mp made
      obtain rfl := eq_array_of_array? isList
      exact .allOf reference isStated (loadsBranches_of_parts branches)
    | none =>
      rw [hasAllOf, Option.map_none, Option.map_eq_none_iff] at allOf
      cases hasUnion : k.oneOf.or k.anyOf with
      | some parts =>
        rw [ofNormal.shapeOf, hasReference, hasAllOf, inOrder, hasUnion] at loaded
        rw [hasUnion] at union
        obtain ⟨j, isStated, isList⟩ := Option.map_eq_some_iff.mp union
        obtain ⟨nodes, branches, made⟩ := Outcome.bind_eq_ok.mp loaded
        obtain rfl := Outcome.pure_eq_ok.mp made
        obtain rfl := eq_array_of_array? isList
        exact .oneOf reference allOf isStated (loadsBranches_of_parts branches)
      | none => exact shaped_of_typed reads hasReference hasAllOf hasUnion loaded

/-- What is loaded comes from keywords that were read. -/
theorem exists_keywords_of_ofNormal (loaded : ofNormal (.object ms) = .ok node) :
    ∃ (k : Keywords (.object ms)) (shape : Shape Schema),
      k.Reads ms ∧ ofNormal.shapeOf k = .ok shape ∧
        node = {
          shape
          nullable := k.nullable
          readOnly := k.readOnly
          default? := k.default?.map Value.ofJson } := by
  rw [ofNormal] at loaded
  cases found : Keywords.ofJson? (.object ms) with
  | none => simp [found] at loaded
  | some k =>
    rw [found] at loaded
    obtain ⟨given, isGiven, isRead⟩ := Keywords.ofJson?_eq_some_iff.mp found
    obtain ⟨shape, isShape, made⟩ := Outcome.bind_eq_ok.mp loaded
    exact ⟨k, shape, .of_readFrom isGiven isRead, isShape, (Outcome.pure_eq_ok.mp made).symm⟩

theorem reads_of_ofNormal (loaded : ofNormal (.object ms) = .ok node) : Reads ms node := by
  obtain ⟨k, shape, reads, isShape, rfl⟩ := exists_keywords_of_ofNormal loaded
  exact ⟨shaped_of_shapeOf reads isShape, reads.nullable, reads.readOnly,
    by rw [← reads.default?]⟩

end Schema

end ApiContract

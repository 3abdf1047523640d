import ApiContract.Proofs.Schema.Places

/-!
Loading a schema place by place.

Around each nested place a schema is written that has no other. It loads to the node of its place,
except for properties whose names are keywords that the passes act on: their schemas are skipped or
rewritten.
-/

namespace ApiContract

namespace Schema

open Json

variable {ms : Entries Json} {node : Schema} {shape : Shape Schema}

def loadEntries (load : Json → Except SchemaFault Schema) (ps : List (String × Json)) :
    Except SchemaFault (List (String × Schema)) :=
  ps.mapM fun e => do return (e.1, ← load e.2)

def withProperties (ps : List (String × Json)) : Json :=
  .object [("type", .string "object"), ("properties", .object ps)]

def withItems (j : Json) : Json := .object [("type", .string "array"), ("items", j)]

def withExtra (j : Json) : Json :=
  .object [("type", .string "object"), ("additionalProperties", j)]

/-- A schema of a given type and without unions has no list that the passes look for. -/
theorem noList_of_type {name : String} (typed : ms.get? "type" = some (.string name))
    (noOneOf : ms.get? "oneOf" = none) (noAnyOf : ms.get? "anyOf" = none) :
    ∀ key ∈ ["type", "oneOf", "anyOf"], ∀ items,
      (ms.get? key).map (normalMember key) ≠ some (.array items) := by
  intro key isKey items
  simp only [List.mem_cons, List.not_mem_nil, or_false] at isKey
  rcases isKey with rfl | rfl | rfl
  · simp [typed, normalMember, memberWithoutBooleans, dataKeys, withoutConst, withNullable]
  · simp [noOneOf]
  · simp [noAnyOf]

theorem withType_noList {name key : String} {j : Json} (other : key ∉ ["type", "oneOf", "anyOf"]) :
    ∀ k ∈ ["type", "oneOf", "anyOf"], ∀ items,
      (Entries.get? [("type", .string name), (key, j)] k).map (normalMember k) ≠
        some (.array items) := by
  simp only [List.mem_cons, List.not_mem_nil, or_false, not_or] at other
  exact noList_of_type rfl (by simp [Entries.get?, other]) (by simp [Entries.get?, other])

theorem mapM_attach {ε α β : Type} (f : α → Except ε β) (items : List α) :
    (items.attach.mapM fun a => f a.1) = items.mapM f := by
  have mapped := List.mapM_map (m := Except ε) (f := Subtype.val) (l := items.attach) (g := f)
  rw [List.attach_map_subtype_val] at mapped
  exact mapped.symm

theorem ofNormal_withProperties (ps : List (String × Json)) :
    ofNormal (withProperties ps) =
      (fun properties => plain (.object { properties })) <$> loadEntries ofNormal ps := by
  have entries : loadEntries ofNormal ps =
      ps.attach.mapM fun e => Prod.mk e.1.1 <$> ofNormal e.1.2 := by
    rw [mapM_attach fun e : String × Json => Prod.mk e.1 <$> ofNormal e.2]
    simp [loadEntries]
  have inside : sizeOf (Json.object ps) < sizeOf (withProperties ps) :=
    sizeOf_lt_of_mem_members (e := ("properties", .object ps)) (by simp)
  rw [entries, ofNormal_of_readFrom (k := { Keywords.blank with
      types := some (.single "object"), properties := partMembers ⟨.object ps, inside⟩ }) rfl
    (by constructor <;> rfl)]
  simp [ofNormal.shapeOf, TypeHint.ofKeywords, Keywords.blank, partMembers, plain,
    Function.comp_def]

theorem normalSchema_withProperties {ps qs : List (String × Json)}
    (member : normalMember "properties" (.object ps) = .object qs) :
    normalSchema (withProperties ps) = withProperties qs := by
  rw [withProperties, normalSchema_eq_map rfl rfl]
  · simp only [List.map_cons, List.map_nil, member]
    rfl
  · exact withType_noList (by decide)

theorem ofJson_withProperties {ps : List (String × Json)} (ordinary : ∀ e ∈ ps, Ordinary e.1 e.2) :
    ofJson (withProperties ps) =
      (fun properties => plain (.object { properties })) <$> loadEntries ofJson ps := by
  rw [ofJson, normalSchema_withProperties (normalMember_properties ordinary),
    ofNormal_withProperties, loadEntries, List.mapM_map]
  rfl

theorem ofNormal_withItems {j : Json} (present : j ≠ .null) :
    ofNormal (withItems j) = (fun items => plain (.array { items })) <$> ofNormal j := by
  have inside : sizeOf j < sizeOf (withItems j) :=
    sizeOf_lt_of_mem_members (e := ("items", j)) (by simp)
  rw [ofNormal_of_readFrom (k := { Keywords.blank with
    types := some (.single "array"), items := some ⟨j, inside⟩ }) rfl]
  · simp [ofNormal.shapeOf, TypeHint.ofKeywords, Keywords.blank, plain]
  · constructor
    case items => exact Keywords.optional_of_present rfl present
    all_goals rfl

theorem ofJson_withItems {j : Json} (present : j ≠ .null) :
    ofJson (withItems j) = (fun items => plain (.array { items })) <$> ofJson j := by
  have normal : normalSchema (withItems j) = withItems (normalSchema j) := by
    rw [withItems, normalSchema_eq_map rfl rfl]
    · simp only [List.map_cons, List.map_nil, normalMember_items]
      rfl
    · exact withType_noList (by decide)
  have still : normalSchema j ≠ .null := by
    rw [← normalMember_items]
    exact mt normalMember_eq_null.mp present
  rw [ofJson, normal, ofNormal_withItems still]
  rfl

theorem ofNormal_withExtra (inner : List (String × Json)) :
    ofNormal (withExtra (.object inner)) =
      (fun node => plain (.object { properties := [], additional := .schema node })) <$>
        ofNormal (.object inner) := by
  have inside : sizeOf (Json.object inner) < sizeOf (withExtra (.object inner)) :=
    sizeOf_lt_of_mem_members (e := ("additionalProperties", .object inner)) (by simp)
  rw [ofNormal_of_readFrom (k := { Keywords.blank with
      types := some (.single "object"), additional := some ⟨.object inner, inside⟩ }) rfl
    (by constructor <;> rfl)]
  simp [ofNormal.shapeOf, TypeHint.ofKeywords, Keywords.blank, plain]

theorem ofJson_withExtra (inner : Entries Json) :
    ofJson (withExtra (.object inner)) =
      (fun node => plain (.object { properties := [], additional := .schema node })) <$>
        ofJson (.object inner) := by
  have member : normalMember "additionalProperties" (.object inner) =
      normalSchema (.object inner) := by
    rcases normalMember_additional (.object inner) with ⟨flag, isFlag, -⟩ | ⟨-, -, same⟩
    · simp at isFlag
    · exact same
  have normal : normalSchema (withExtra (.object inner)) =
      withExtra (normalSchema (.object inner)) := by
    rw [withExtra, normalSchema_eq_map rfl rfl]
    · simp only [List.map_cons, List.map_nil, member]
      rfl
    · exact withType_noList (by decide)
  rw [ofJson, ofJson, normal, normalSchema_object, ofNormal_withExtra]

def withBranches (key : String) (parts : List Json) (nullable : Bool) : Json :=
  .object ((key, .array parts) :: if nullable then [("nullable", .bool true)] else [])

theorem ofNormal_withBranches {key : String} (isBranchKey : key ∈ branchKeys) (parts : List Json)
    (nullable : Bool) :
    ofNormal (withBranches key parts nullable) =
      (fun nodes => { shape := if key = "allOf" then .allOf nodes else .oneOf nodes, nullable }) <$>
        parts.mapM ofNormal := by
  have inside : sizeOf (Json.array parts) < sizeOf (withBranches key parts nullable) :=
    sizeOf_lt_of_mem_members (e := (key, .array parts)) (by simp)
  rw [ofNormal_of_readFrom (k := { Keywords.blank with
    allOf := if key = "allOf" then partItems ⟨.array parts, inside⟩ else none
    oneOf := if key = "oneOf" then partItems ⟨.array parts, inside⟩ else none
    anyOf := if key = "anyOf" then partItems ⟨.array parts, inside⟩ else none
    nullable }) rfl]
  · simp only [branchKeys, List.mem_cons, List.not_mem_nil, or_false] at isBranchKey
    rcases isBranchKey with rfl | rfl | rfl <;>
      simp [ofNormal.shapeOf, Keywords.blank, partItems]
  · simp only [branchKeys, List.mem_cons, List.not_mem_nil, or_false] at isBranchKey
    rcases isBranchKey with rfl | rfl | rfl <;> cases nullable <;> constructor <;> rfl

theorem ofJson_withAllOf (parts : List Json) :
    ofJson (withBranches "allOf" parts false) = allOf <$> parts.mapM ofJson := by
  have normal : normalSchema (withBranches "allOf" parts false) =
      withBranches "allOf" (parts.map normalSchema) false := by
    rw [withBranches, normalSchema_eq_map rfl rfl]
    · simp [withBranches, normalMember_branches (by decide : "allOf" ∈ branchKeys)]
    · simp [Entries.get?]
  rw [ofJson, normal, ofNormal_withBranches (by decide), List.mapM_map]
  rfl

/-- The union of some nodes, or what is made of it when null was one of its branches. -/
def unionOf (nullable : Bool) (nodes : List Schema) : Schema :=
  if nullable then
    match nodes with
    | [node] => (allOf [node]).asNullable
    | _ => (oneOf nodes).asNullable
  else oneOf nodes

theorem flagNull_union {key : String} (isUnion : IsUnion key) (parts : List Json) :
    Json.object (flagNull [(key, .array parts)]) =
      if parts.any isNullBranch then
        match parts.filter fun b => !isNullBranch b with
        | [only] => withBranches "allOf" [only] true
        | rest => withBranches key rest true
      else withBranches key parts false := by
  have fewer := length_filter_eq_length_iff parts
  by_cases admits : parts.any isNullBranch = true
  · have someNull : ¬(parts.filter fun b => !isNullBranch b).length = parts.length := by
      simp [fewer, admits]
    rw [if_pos admits]
    rcases filtered : parts.filter fun b => !isNullBranch b with _ | ⟨only, _ | ⟨next, rest⟩⟩
    all_goals
      rw [filtered] at someNull
      simp only [List.length_nil, List.length_cons, Nat.zero_add] at someNull
      cases isUnion <;>
        simp [flagNull, scanFlag, scanTypes, scanUnion, Entries.get?, someNull, filtered,
          withBranches, Entries.insert, Entries.swapRemove]
  · have noNull : (parts.filter fun b => !isNullBranch b).length = parts.length := by
      simpa [fewer] using admits
    rw [if_neg admits]
    cases isUnion <;>
      simp [flagNull, scanFlag, scanTypes, scanUnion, Entries.get?, noNull, withBranches]

theorem ofJson_withUnion {key : String} (isUnion : IsUnion key) {parts : List Json}
    (keyed : ∀ branch ∈ parts, branch.Keyed) :
    ofJson (withBranches key parts false) =
      unionOf (parts.any isNullBranch) <$>
        (parts.filter fun b => !isNullBranch b).mapM ofJson := by
  have isBranchKey := isUnion.mem_branchKeys
  have notAllOf := isUnion.ne_allOf
  have listed : listedMembers [(key, .array parts)] = [(key, .array (parts.map normalSchema))] := by
    rw [listedMembers_eq_map (by cases isUnion <;> rfl)]
    simp [normalMember_branches isBranchKey]
  have admits : (parts.map normalSchema).any isNullBranch = parts.any isNullBranch :=
    any_map_normalSchema keyed
  have normal : normalSchema (withBranches key parts false) =
      .object (flagNull [(key, .array (parts.map normalSchema))]) := by
    rw [withBranches, normalSchema_object, normalMembers, if_neg (by simp), listed]
  rw [ofJson, normal, flagNull_union isUnion, filter_map_normalSchema keyed, admits]
  by_cases someNull : parts.any isNullBranch = true
  · rw [if_pos someNull, someNull]
    rcases parts.filter fun b => !isNullBranch b with _ | ⟨only, _ | ⟨next, rest⟩⟩
    · rw [List.map_nil, ofNormal_withBranches isBranchKey]
      simp only [notAllOf, if_false]
      rfl
    · rw [List.map_cons, List.map_nil, ofNormal_withBranches (by decide), List.mapM_cons,
        List.mapM_cons]
      change _ = unionOf true <$> (ofJson only >>= fun node => pure [node])
      rw [ofJson]
      cases ofNormal (normalSchema only) <;> rfl
    · rw [List.map_cons, List.map_cons, ofNormal_withBranches isBranchKey, List.mapM_cons,
        List.mapM_cons, List.mapM_cons, List.mapM_cons, List.mapM_map, ofJson, ofJson]
      simp only [notAllOf, if_false]
      cases ofNormal (normalSchema only) with
      | error cause => rfl
      | ok first =>
        cases ofNormal (normalSchema next) with
        | error cause => rfl
        | ok second =>
          have others : rest.mapM (ofNormal ∘ normalSchema) = rest.mapM ofJson := rfl
          rw [others]
          cases rest.mapM ofJson <;> rfl
  · have all : parts.filter (fun b => !isNullBranch b) = parts := by
      rw [List.filter_eq_self]
      simpa using someNull
    rw [all, if_neg someNull, ofNormal_withBranches isBranchKey, List.mapM_map]
    simp only [notAllOf, if_false, Bool.not_eq_true _ ▸ someNull]
    rfl

def constantText (s : String) : Json := .object [("const", .string s)]

theorem normalSchema_constantText (s : String) :
    normalSchema (constantText s) =
      .object [("enum", .array [.string s]), ("type", .string "string")] := by
  simp [constantText, normalSchema_object, normalMembers, listedMembers, membersWithoutBooleans,
    membersWithoutConst, membersWithNullable, listConst, flagNull, scanFlag, scanTypes, scanUnion,
    constType?, withNullable, dataKeys, Entries.get?, Entries.contains, Entries.insert,
    Entries.swapRemove]

theorem ofJson_constantText (s : String) :
    ofJson (constantText s) = .ok (plain (.string { allowed := some [s] })) := by
  rw [ofJson, normalSchema_constantText, ofNormal_of_readFrom (k := { Keywords.blank with
      types := some (.single "string"), allowed := some [.string s] }) rfl
    (by constructor <;> rfl)]
  simp [ofNormal.shapeOf, TypeHint.ofKeywords, Keywords.blank, stringRule, pattern?, string?, plain]

theorem ofNormal_constantText (s : String) :
    ofNormal (constantText s) = .ok (plain (.unknown (constantText s))) := by
  have notExtension : "x-".isPrefixOf "const" = false := by simp [String.isPrefixOf]
  rw [ofNormal_of_readFrom (k := Keywords.blank) rfl (by constructor <;> rfl)]
  simp [ofNormal.shapeOf, TypeHint.ofKeywords, Keywords.blank, isUnconstrained, annotations, plain,
    constantText, notExtension]

theorem ofJson_withProperties_data {name : String} (s : String)
    (isData : name ∈ ["default", "example", "examples", "enum"]) :
    ofJson (withProperties [(name, constantText s)]) =
      .ok (plain (.object { properties := [(name, plain (.unknown (constantText s)))] })) := by
  have normal : normalSchema (withProperties [(name, constantText s)]) =
      withProperties [(name, constantText s)] := by
    apply normalSchema_withProperties
    simp only [List.mem_cons, List.not_mem_nil, or_false] at isData
    rcases isData with rfl | rfl | rfl | rfl <;>
      simp [normalMember, memberWithoutBooleans, valuesWithoutBooleans, membersWithoutBooleans,
        withoutBooleans, withoutConst, membersWithoutConst, listConst, withNullable,
        membersWithNullable, flagNull, scanFlag, scanTypes, scanUnion, dataKeys, constantText,
        Entries.get?]
  rw [ofJson, normal, ofNormal_withProperties]
  simp [loadEntries, ofNormal_constantText]

theorem ofJson_withProperties_const (s : String) :
    ofJson (withProperties [("const", constantText s)]) =
      .error (.malformed (.array [constantText s])) := by
  have normal : normalSchema (withProperties [("const", constantText s)]) =
      withProperties [("enum", .array [constantText s]), ("type", .string "object")] := by
    apply normalSchema_withProperties
    simp [normalMember, memberWithoutBooleans, valuesWithoutBooleans, membersWithoutBooleans,
      withoutBooleans, withoutConst, membersWithoutConst, listConst, constType?, withNullable,
      membersWithNullable, flagNull, scanFlag, scanTypes, scanUnion, dataKeys, constantText,
      Entries.get?, Entries.swapRemove, Entries.insert, Entries.contains]
  have isList :
      ofNormal (.array [constantText s]) = .error (.malformed (.array [constantText s])) := by
    rw [ofNormal]
    cases found : Keywords.ofJson? (.array [constantText s]) with
    | none => rfl
    | some k =>
      obtain ⟨given, isGiven, isRead⟩ := Keywords.ofJson?_eq_some_iff.mp found
      obtain rfl := Option.some.inj isGiven
      cases isRead.reference
  rw [ofJson, normal, ofNormal_withProperties, loadEntries, List.mapM_cons, isList]
  rfl

theorem ofJson_withProperties_flag (s : String) :
    ofJson (withProperties [("x-nullable", constantText s)]) =
      .ok (plain (.object { properties := [] })) := by
  have normal : normalSchema (withProperties [("x-nullable", constantText s)]) =
      withProperties [] := by
    apply normalSchema_withProperties
    simp [normalMember, memberWithoutBooleans, valuesWithoutBooleans, membersWithoutBooleans,
      withoutBooleans, withoutConst, membersWithoutConst, listConst, constType?, withNullable,
      membersWithNullable, flagNull, scanFlag, scanTypes, scanUnion, dataKeys, constantText,
      Entries.get?, Entries.swapRemove, Entries.insert, Entries.contains, bool?]
  rw [ofJson, normal, ofNormal_withProperties]
  rfl

/-- Under the name of a keyword for data or of the extension flag, a schema is loaded otherwise than
on its own, or not at all. -/
theorem exists_misloaded {name : String} (reserved : name ∈ dataKeys ∨ name = "x-nullable") :
    ∃ S node, ofJson S = .ok node ∧
      ofJson (withProperties [(name, S)]) ≠
        .ok (plain (.object { properties := [(name, node)] })) := by
  refine ⟨constantText "a", _, ofJson_constantText "a", ?_⟩
  by_cases isData : name ∈ ["default", "example", "examples", "enum"]
  · rw [ofJson_withProperties_data "a" isData]
    simp [plain]
  · obtain rfl | rfl : name = "const" ∨ name = "x-nullable" := by simp_all [dataKeys]
    · rw [ofJson_withProperties_const]
      simp
    · rw [ofJson_withProperties_flag]
      simp [plain]

/-- Loading goes place by place: the properties of an object, its schema for other keys, the items
of an array and the branches of intersections and unions are loaded as they are on their own, with
null branches left out of unions. Properties are except under the names that the passes take for
keywords, and there it fails. -/
theorem loading_composes (ps : List (String × Json)) (j : Json) (inner : Entries Json)
    (parts : List Json) (ms : Entries Json) (node : Schema) :
    ((∀ e ∈ ps, Ordinary e.1 e.2) →
      ofJson (withProperties ps) =
        (fun properties => plain (.object { properties })) <$> loadEntries ofJson ps) ∧
    (∀ name, name ∈ dataKeys ∨ name = "x-nullable" →
      ∃ S node, ofJson S = .ok node ∧
        ofJson (withProperties [(name, S)]) ≠
          .ok (plain (.object { properties := [(name, node)] }))) ∧
    (j ≠ .null → ofJson (withItems j) = (fun items => plain (.array { items })) <$> ofJson j) ∧
    ofJson (withExtra (.object inner)) =
      (fun node => plain (.object { properties := [], additional := .schema node })) <$>
        ofJson (.object inner) ∧
    ofJson (withBranches "allOf" parts false) = allOf <$> parts.mapM ofJson ∧
    (∀ key, IsUnion key → (∀ branch ∈ parts, branch.Keyed) →
      ofJson (withBranches key parts false) =
        unionOf (parts.any isNullBranch) <$>
          (parts.filter fun b => !isNullBranch b).mapM ofJson) ∧
    (WellKeyed ms → ofJson (.object ms) = .ok node → Composed ms node.shape) :=
  ⟨ofJson_withProperties, fun _ => exists_misloaded, ofJson_withItems, ofJson_withExtra inner,
    ofJson_withAllOf parts, fun _ isUnion => ofJson_withUnion isUnion,
    fun wellKeyed => composed_of_ofJson wellKeyed⟩

def petProperties : List (String × Json) :=
  [("kind", constantText "dog"), ("type", .object [("type", .string "boolean")])]

def pet : Schema :=
  plain (.object { properties := [("kind", plain (.string { allowed := some ["dog"] })),
    ("type", boolean)] })

def petMembers : Entries Json := [("type", .string "object"), ("properties", .object petProperties)]

def kindBranches : List Json := [constantText "dog", .object [("type", .string "null")]]

theorem pet_loaded :
    (∀ e ∈ petProperties, Ordinary e.1 e.2) ∧ ofJson (.object petMembers) = .ok pet ∧
      Composed petMembers pet.shape ∧
      ofJson (withItems (constantText "dog")) =
        .ok (plain (.array { items := plain (.string { allowed := some ["dog"] }) })) ∧
      ofJson (withBranches "anyOf" kindBranches false) =
        .ok (allOf [plain (.string { allowed := some ["dog"] })]).asNullable := by
  obtain ⟨properties, -, items, -, -, unions, composed⟩ :=
    loading_composes petProperties (constantText "dog") [] kindBranches petMembers pet
  have ordinary : ∀ e ∈ petProperties, Ordinary e.1 e.2 := by
    simp [petProperties, Ordinary, dataKeys]
  have flag : ofJson (.object [("type", .string "boolean")]) = .ok boolean := by
    have normal : normalSchema (.object [("type", .string "boolean")]) =
        .object [("type", .string "boolean")] := rfl
    rw [ofJson, normal, ofNormal_of_readFrom (k := { Keywords.blank with
        types := some (.single "boolean") }) rfl (by constructor <;> rfl)]
    simp [ofNormal.shapeOf, TypeHint.ofKeywords, Keywords.blank, boolean, plain]
  have loaded : ofJson (.object petMembers) = .ok pet := by
    refine (properties ordinary).trans ?_
    simp only [loadEntries, petProperties, List.mapM_cons, List.mapM_nil, ofJson_constantText, flag]
    rfl
  have wellKeyed : WellKeyed petMembers := by
    refine ⟨by simp [Entries.Distinct, petMembers], fun isUnion => ?_⟩
    cases isUnion <;> simp [branchList, petMembers, Entries.get?]
  have keyed : ∀ branch ∈ kindBranches, branch.Keyed := by
    simp [kindBranches, Json.Keyed, constantText, Entries.Distinct]
  refine ⟨ordinary, loaded, composed wellKeyed loaded, ?_, ?_⟩
  · rw [items (by simp [constantText]), ofJson_constantText]
    rfl
  · rw [unions "anyOf" .anyOf keyed]
    have nullBranch : isNullBranch (.object [("type", .string "null")]) = true := rfl
    have textBranch : isNullBranch (constantText "dog") = false := rfl
    simp [kindBranches, nullBranch, textBranch, ofJson_constantText, unionOf]

/-- A property that is called after a keyword for data. -/
theorem default_misloaded :
    ofJson (constantText "dog") = .ok (plain (.string { allowed := some ["dog"] })) ∧
      ofJson (withProperties [("default", constantText "dog")]) =
        .ok (plain (.object
          { properties := [("default", plain (.unknown (constantText "dog")))] })) :=
  ⟨ofJson_constantText "dog", ofJson_withProperties_data "dog" (by simp)⟩

end Schema

end ApiContract

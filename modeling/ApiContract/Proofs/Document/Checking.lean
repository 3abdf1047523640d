import ApiContract.Document.Loader
import ApiContract.Proofs.Document.References
import ApiContract.Proofs.Schema.Loading

/-!
Which broken reference is reported.

The check of a document takes what is left to look at from its end. So it comes to the last of the
named schemas first, and to the last child of a node. Only references are resolved, and they have no
children, so the check meets them in document order from behind: what it reports is the fault of the
last reference that does not resolve.
-/

namespace ApiContract

theorem Outcome.forM_eq_error {ε α : Type} {f : α → Except ε Unit} {fault? : α → Option ε}
    (faulty : ∀ a e, f a = .error e ↔ fault? a = some e) {items : List α} {e : ε} :
    items.forM f = .error e ↔ (items.filterMap fault?).head? = some e := by
  induction items with
  | nil => simp [pure_ne_error]
  | cons a rest ih =>
    rw [List.forM_eq_forM] at ih ⊢
    rw [List.forM_cons, bind_eq_error, ih, faulty, List.filterMap_cons]
    cases first : fault? a with
    | some cause =>
      have failed : f a = .error cause := (faulty a cause).mpr first
      simp [failed]
    | none =>
      have passed : f a = .ok () := by
        cases outcome : f a with
        | ok => rfl
        | error cause => simp [(faulty a cause).mp outcome] at first
      simp [passed]

theorem getLast?_filterMap_eq_some_iff {α β : Type} {f : α → Option β} {items : List α} {b : β} :
    (items.filterMap f).getLast? = some b ↔
      ∃ before a after, items = before ++ a :: after ∧ f a = some b ∧
        ∀ later ∈ after, f later = none := by
  rw [List.getLast?_filterMap, List.findSome?_eq_some_iff]
  constructor
  · rintro ⟨after, a, before, reversed, found, passed⟩
    refine ⟨before.reverse, a, after.reverse, ?_, found, by simpa using passed⟩
    simpa using congrArg List.reverse reversed
  · rintro ⟨before, a, after, rfl, found, passed⟩
    exact ⟨after.reverse, a, before.reverse, by simp, found, by simpa using passed⟩

namespace Schema

variable {α : Type} {f : Schema → Option α}

theorem filterMap_flatMap_walk {schemas : List Schema}
    (each : ∀ s ∈ schemas, s.walk.filterMap f = (s.nodes.filterMap f).reverse) :
    (schemas.reverse.flatMap walk).filterMap f =
      ((schemas.flatMap nodes).filterMap f).reverse := by
  rw [List.filterMap_flatMap, List.filterMap_flatMap, List.reverse_flatMap]
  exact List.flatMap_congr fun s isSchema => each s (List.mem_reverse.mp isSchema)

/-- Of nodes that have no children the walk meets the last one first. -/
theorem filterMap_walk (childless : ∀ node, (f node).isSome → node.children = []) (s : Schema) :
    s.walk.filterMap f = (s.nodes.filterMap f).reverse := by
  induction s using nesting_induction with
  | step s ih =>
    rw [walk_eq_cons, nodes_eq_cons, List.filterMap_cons, List.filterMap_cons]
    cases found : f s with
    | none => exact filterMap_flatMap_walk ih
    | some a => simp [childless s (by simp [found])]

end Schema

namespace Document

variable {d : Document} {node : Schema} {cause : SchemaFault}

/-- The nodes of the named schemas in document order. -/
def nodes (d : Document) : List Schema := (Entries.values d.schemas).flatMap Schema.nodes

/-- What is wrong with a node that is a reference. -/
def fault? (d : Document) (node : Schema) : Option SchemaFault :=
  match node.shape with
  | .ref _ =>
    match d.resolve node with
    | .ok _ => none
    | .error cause => some cause
  | _ => none

theorem fault?_eq_some_iff :
    d.fault? node = some cause ↔ node.IsReference ∧ d.resolve node = .error cause := by
  unfold fault? Schema.IsReference
  cases shape : node.shape with
  | ref target => cases d.resolve node <;> simp
  | _ => simp

theorem fault?_eq_none_iff : d.fault? node = none ↔ (node.IsReference → d.Resolves node) := by
  unfold fault? Schema.IsReference Resolves
  cases shape : node.shape with
  | ref target => cases d.resolve node <;> simp
  | _ => simp

/-- The check reports the last of all faults. -/
theorem checkReferences_eq_error_iff :
    d.checkReferences = .error cause ↔ (d.nodes.filterMap d.fault?).getLast? = some cause := by
  have childless (node : Schema) (faulty : (d.fault? node).isSome) : node.children = [] := by
    obtain ⟨cause, isFault⟩ := Option.isSome_iff_exists.mp faulty
    obtain ⟨⟨target, shape⟩, -⟩ := fault?_eq_some_iff.mp isFault
    simp [Schema.children, shape, Shape.nodes]
  have backwards : ((Entries.values d.schemas).reverse.flatMap Schema.walk).filterMap d.fault? =
      (d.nodes.filterMap d.fault?).reverse :=
    Schema.filterMap_flatMap_walk fun s _ => Schema.filterMap_walk childless s
  rw [← List.head?_reverse, ← backwards, checkReferences_eq]
  refine Outcome.forM_eq_error fun node cause => ?_
  unfold checkNode fault?
  cases node.shape with
  | ref target => cases d.resolve node <;> simp [Except.map]
  | _ => simp

/-- A document that a description gives: each member of its section is read as the schema of that
name. -/
structure DescribedBy (d : Document) (raw : Json) : Prop where
  isObject : ∃ members, raw = .object members
  self : d.selfUri = (raw.get? "$self").bind Json.string?
  named : (schemaSection? raw = none ∧ d.schemas = []) ∨
    ∃ members, schemaSection? raw = some (.object members) ∧
      List.Forall₂ (fun m e => m.1 = e.1 ∧ Schema.ofJson m.2 = .ok e.2) members d.schemas

theorem loadSchemas_of_forall₂ (start : Document) {members : List (String × Json)}
    {named : List (String × Schema)}
    (loaded : List.Forall₂ (fun m e => m.1 = e.1 ∧ Schema.ofJson m.2 = .ok e.2) members named)
    (distinct : Entries.Distinct (start.schemas ++ named)) :
    loadSchemas start members =
      .ok { start with schemas := start.schemas ++ named, distinct := distinct } := by
  induction loaded generalizing start with
  | nil => simp [loadSchemas]
  | @cons m e members named first _ ih =>
    obtain ⟨name, raw⟩ := m
    obtain ⟨_, schema⟩ := e
    obtain ⟨rfl, read⟩ := first
    have fresh : name ∉ Entries.keys start.schemas := by
      rw [Entries.Distinct, Entries.keys, List.map_append, List.nodup_append] at distinct
      exact fun known => distinct.2.2 name known name List.mem_cons_self rfl
    have inserted : (start.insert name schema).schemas = start.schemas ++ [(name, schema)] :=
      Entries.insert_of_not_mem fresh schema
    have distinctRest : Entries.Distinct ((start.insert name schema).schemas ++ named) := by
      rwa [inserted, List.append_assoc]
    rw [loadSchemas, read]
    simp only [ih _ distinctRest, inserted, List.append_assoc]
    rfl

theorem ofJson_of_describedBy {raw : Json} (described : d.DescribedBy raw) :
    ofJson raw = d.checkReferences.map fun _ => d := by
  have checked (d : Document) : (do d.checkReferences; return d) =
      d.checkReferences.map fun _ => d := by
    cases d.checkReferences <;> rfl
  obtain ⟨⟨outer, rfl⟩, self, named⟩ := described
  obtain ⟨schemas, selfUri, distinct⟩ := d
  obtain rfl : selfUri = _ := self
  unfold ofJson
  rcases named with ⟨noSection, rfl⟩ | ⟨members, isSection, loaded⟩
  · simp only [noSection, pure_bind]
    exact checked _
  · have read (uri : Option String) :
        loadSchemas ⟨[], uri, Entries.distinct_nil⟩ members = .ok ⟨schemas, uri, distinct⟩ :=
      loadSchemas_of_forall₂ ⟨[], uri, Entries.distinct_nil⟩ loaded distinct
    simp only [isSection, Json.object?, read]
    exact checked _

/-- The check of a document fails with the fault of the last reference that does not resolve. Here
the named schemas come in their order, every node before what is inside it, properties in their
order and before the schema for other keys, and branches from left to right. A description of the
document, whose schemas can all be read, loads or fails as the check says. -/
theorem last_broken_reference_reported (d : Document) :
    (∀ cause, d.checkReferences = .error cause ↔
      ∃ before node after, d.nodes = before ++ node :: after ∧ node.IsReference ∧
        d.resolve node = .error cause ∧ ∀ later ∈ after, later.IsReference → d.Resolves later) ∧
      ∀ raw, d.DescribedBy raw → ofJson raw = d.checkReferences.map fun _ => d := by
  refine ⟨fun cause => ?_, fun raw => ofJson_of_describedBy⟩
  rw [checkReferences_eq_error_iff, getLast?_filterMap_eq_some_iff]
  simp only [fault?_eq_some_iff, fault?_eq_none_iff, and_assoc]

def visit : Schema :=
  .plain (.object { properties := [("owner", .reference "Owner"), ("vet", .reference "Vet")] })

def visitDocument : Document := { schemas := [("Visit", visit)] }

def referenceTo (target : String) : Json := .object [("$ref", .string target)]

def visitDescription : Json :=
  .object [("definitions", .object [("Visit",
    Schema.withProperties [("owner", referenceTo "Owner"), ("vet", referenceTo "Vet")])])]

theorem ofJson_referenceTo (target : String) :
    Schema.ofJson (referenceTo target) = .ok (.reference target) := by
  have normal : Json.normalSchema (referenceTo target) = referenceTo target := rfl
  rw [Schema.ofJson, normal, Schema.ofNormal_of_readFrom (k := { Keywords.blank with
      reference := some target }) rfl (by constructor <;> rfl)]
  simp [Schema.ofNormal.shapeOf, Keywords.blank, Schema.reference, Schema.plain]

theorem nodes_visitDocument :
    visitDocument.nodes = [visit, .reference "Owner", .reference "Vet"] := by
  simp [nodes, visitDocument, visit, Entries.values, Schema.nodes_eq_cons, Schema.children,
    Shape.nodes, Schema.plain, Schema.reference, Additional.nodes]

theorem owner_unresolvable :
    visitDocument.resolve (.reference "Owner") = .error (.unresolvable "Owner") := rfl

theorem vet_unresolvable :
    visitDocument.resolve (.reference "Vet") = .error (.unresolvable "Vet") := rfl

theorem visitDocument_described : visitDocument.DescribedBy visitDescription where
  isObject := ⟨_, rfl⟩
  self := rfl
  named := by
    have loaded : Schema.ofJson (Schema.withProperties
        [("owner", referenceTo "Owner"), ("vet", referenceTo "Vet")]) = .ok visit := by
      rw [Schema.ofJson_withProperties (by simp [Json.Ordinary, Json.dataKeys])]
      simp only [Schema.loadEntries, List.mapM_cons, List.mapM_nil, ofJson_referenceTo]
      rfl
    exact .inr ⟨_, rfl, .cons ⟨rfl, loaded⟩ .nil⟩

/-- The vet comes last in document order. -/
theorem vet_reported :
    visitDocument.DescribedBy visitDescription ∧
      visitDocument.checkReferences = .error (.unresolvable "Vet") ∧
      ofJson visitDescription = .error (.unresolvable "Vet") := by
  obtain ⟨reported, loading⟩ := last_broken_reference_reported visitDocument
  have checked : visitDocument.checkReferences = .error (.unresolvable "Vet") :=
    (reported _).mpr ⟨[visit, .reference "Owner"], .reference "Vet", [], nodes_visitDocument,
      ⟨_, rfl⟩, vet_unresolvable, by simp⟩
  refine ⟨visitDocument_described, checked, ?_⟩
  rw [loading _ visitDocument_described, checked]
  rfl

/-- The owner, who comes first, is not the one that is reported. -/
theorem owner_not_reported :
    visitDocument.nodes = [visit, .reference "Owner", .reference "Vet"] ∧
      ¬visit.IsReference ∧
      visitDocument.resolve (.reference "Owner") = .error (.unresolvable "Owner") ∧
      visitDocument.checkReferences ≠ .error (.unresolvable "Owner") ∧
      ofJson visitDescription ≠ .error (.unresolvable "Owner") := by
  have checked : visitDocument.checkReferences = .error (.unresolvable "Vet") := by
    rw [checkReferences_eq_error_iff, nodes_visitDocument]
    rfl
  refine ⟨nodes_visitDocument, by simp [Schema.IsReference, visit, Schema.plain],
    owner_unresolvable, by simp [checked], ?_⟩
  rw [ofJson_of_describedBy visitDocument_described, checked]
  simp [Except.map]

end Document

end ApiContract

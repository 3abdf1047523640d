import ApiContract.Proofs.Document.References
import ApiContract.Proofs.Validation.Members

/-!
Schemas without their read-only properties.

The writable part of a schema declares only properties that an input may set, at every depth. Its
references point into the writable part of the document. Resolution commutes with taking the
writable part, so a property is read-only in the one document exactly if it is in the other, and
writable parts are writable: nothing that occurs in them declares a read-only property.
-/

namespace ApiContract

namespace Additional

variable {σ τ : Type}

def map (f : σ → τ) : Additional σ → Additional τ
  | unset => unset
  | allowed flag => allowed flag
  | schema node => schema (f node)

/-- The rule with its node known to be one of its nodes. -/
def attach : (rule : Additional σ) → Additional { node // node ∈ rule.nodes }
  | unset => unset
  | allowed flag => allowed flag
  | schema node => schema ⟨node, List.mem_singleton_self node⟩

end Additional

namespace ObjectRule

variable {σ τ : Type}

def map (f : σ → τ) (rule : ObjectRule σ) : ObjectRule τ where
  properties := Entries.mapValues f rule.properties
  required := rule.required
  additional := rule.additional.map f

def restricted (document : Document) (rule : ObjectRule Schema) : ObjectRule Schema :=
  { rule with properties := rule.writableProperties document }

end ObjectRule

namespace Shape

variable {σ τ : Type}

def map (f : σ → τ) : Shape σ → Shape τ
  | string rule => string rule
  | number rule => number rule
  | boolean => boolean
  | array rule => array { rule with items := f rule.items }
  | object rule => object (rule.map f)
  | allOf branches => allOf (branches.map f)
  | oneOf branches => oneOf (branches.map f)
  | ref target => ref target
  | any => any
  | unknown raw => unknown raw

/-- The shape with every node known to be one of its nodes. -/
def attach : (shape : Shape σ) → Shape { node // node ∈ shape.nodes }
  | string rule => string rule
  | number rule => number rule
  | boolean => boolean
  | array rule => array { rule with items := ⟨rule.items, List.mem_singleton_self rule.items⟩ }
  | object rule =>
    object { rule with
      properties := rule.properties.attach.map fun e =>
        (e.1.1, ⟨e.1.2, List.mem_append_left _ (List.mem_map.mpr ⟨e.1, e.2, rfl⟩)⟩)
      additional := rule.additional.attach.map fun node =>
        ⟨node.1, List.mem_append_right _ node.2⟩ }
  | allOf branches => allOf branches.attach
  | oneOf branches => oneOf branches.attach
  | ref target => ref target
  | any => any
  | unknown raw => unknown raw

theorem map_attach (f : σ → τ) (shape : Shape σ) :
    (shape.attach.map fun node => f node.1) = shape.map f := by
  cases shape with
  | object rule =>
    obtain ⟨properties, required, additional⟩ := rule
    have declared : (properties.attach.map fun e => (e.1.1, f e.1.2)) =
        properties.map fun e => (e.1, f e.2) :=
      List.attach_map_val (f := fun e : String × σ => (e.1, f e.2))
    cases additional <;>
      simp [attach, map, ObjectRule.map, Entries.mapValues, Additional.attach, Additional.map,
        Function.comp_def, declared]
  | allOf branches => exact congrArg allOf List.attach_map_val
  | oneOf branches => exact congrArg oneOf List.attach_map_val
  | _ => rfl

theorem nodes_map (f : σ → τ) (shape : Shape σ) : (shape.map f).nodes = shape.nodes.map f := by
  cases shape with
  | object rule =>
    obtain ⟨properties, required, additional⟩ := rule
    cases additional <;>
      simp [map, nodes, ObjectRule.map, Entries.values, Entries.mapValues, Additional.map,
        Additional.nodes]
  | _ => simp [map, nodes]

def restricted (document : Document) : Shape Schema → Shape Schema
  | object rule => object (rule.restricted document)
  | other => other

theorem mem_nodes_of_restricted {document : Document} {shape : Shape Schema} {node : Schema}
    (isNode : node ∈ (shape.restricted document).nodes) : node ∈ shape.nodes := by
  cases shape with
  | object rule =>
    rcases List.mem_append.mp isNode with isProperty | isAdditional
    · obtain ⟨e, isEntry, rfl⟩ := List.mem_map.mp isProperty
      exact ObjectRule.mem_nodes_of_property (List.mem_filter.mp isEntry).1
    · exact List.mem_append_right _ isAdditional
  | _ => exact isNode

end Shape

/-- The schema without the properties that the document makes read-only, at every depth. -/
def Schema.writable (document : Document) (s : Schema) : Schema :=
  { s with shape := (s.shape.restricted document).attach.map fun node => node.1.writable document }
termination_by sizeOf s
decreasing_by exact sizeOf_lt_of_mem_children (Shape.mem_nodes_of_restricted node.2)

/-- At no depth does the schema declare a property that the document makes read-only. -/
def Schema.IsWritable (document : Document) (s : Schema) : Prop :=
  ∀ (node : Schema) (rule : ObjectRule Schema), node.Occurs s → node.shape = .object rule →
    ∀ e ∈ rule.properties, document.isReadOnly e.2 = false

namespace Document

def writable (d : Document) : Document where
  schemas := Entries.mapValues (Schema.writable d) d.schemas
  selfUri := d.selfUri
  distinct := by
    unfold Entries.Distinct
    rw [Entries.keys_mapValues]
    exact d.distinct

end Document

namespace Schema

variable {document : Document} {s : Schema}

theorem shape_writable (document : Document) (s : Schema) :
    (s.writable document).shape =
      (s.shape.restricted document).map (Schema.writable document) := by
  rw [writable]
  exact Shape.map_attach (Schema.writable document) _

@[simp] theorem nullable_writable : (s.writable document).nullable = s.nullable := by
  rw [writable]

@[simp] theorem readOnly_writable : (s.writable document).readOnly = s.readOnly := by
  rw [writable]

@[simp] theorem default?_writable : (s.writable document).default? = s.default? := by
  rw [writable]

@[simp] theorem isAny_writable : (s.writable document).isAny = s.isAny := by
  unfold isAny
  rw [shape_writable]
  cases s.shape <;> rfl

end Schema

namespace Document

variable {d : Document} {node s target : Schema}

theorem get?_writable (d : Document) (name : String) :
    d.writable.get? name = (d.get? name).map (Schema.writable d) :=
  Entries.get?_mapKeyed (fun _ => Schema.writable d) d.schemas name

theorem target?_writable (d : Document) (reference : String) :
    d.writable.target? reference = (d.target? reference).map (Schema.writable d) := by
  have same : d.writable.selfUri = d.selfUri := rfl
  unfold target?
  rw [same]
  cases Reference.schemaName? reference d.selfUri with
  | none => rfl
  | some name => exact d.get?_writable name

theorem follow_writable (hops : Nat) (node : Schema) :
    d.writable.follow hops (node.writable d) = (d.follow hops node).map (Schema.writable d) := by
  induction hops generalizing node with
  | zero =>
    unfold follow
    rw [Schema.shape_writable]
    cases node.shape <;> rfl
  | succ hops ih =>
    unfold follow
    rw [Schema.shape_writable]
    cases node.shape with
    | ref target =>
      simp only [Shape.restricted, Shape.map, target?_writable]
      cases d.target? target with
      | none => rfl
      | some next => exact ih next
    | _ => rfl

/-- The writable part of a node resolves to the writable part of what the node resolves to. -/
theorem resolve_writable (d : Document) (node : Schema) :
    d.writable.resolve (node.writable d) = (d.resolve node).map (Schema.writable d) := by
  have size : d.writable.size = d.size := by simp [Document.size, writable, Entries.mapValues]
  rw [resolve, size, follow_writable]
  rfl

theorem isReadOnly_writable (d : Document) (node : Schema) :
    d.writable.isReadOnly (node.writable d) = d.isReadOnly node := by
  unfold isReadOnly
  rw [resolve_writable]
  cases d.resolve node <;> simp [Except.map, Except.toOption]

/-- A writable part is writable in the writable part of the document. -/
theorem isWritable_writable (d : Document) (s : Schema) :
    (s.writable d).IsWritable d.writable := by
  induction s using Schema.nesting_induction with
  | step s ih =>
    intro node rule occurs shape e isEntry
    cases occurs with
    | here =>
      rw [Schema.shape_writable] at shape
      cases own : s.shape with
      | object ownRule =>
        rw [own] at shape
        obtain rfl := Shape.object.inj shape
        obtain ⟨property, isProperty, rfl⟩ := List.mem_map.mp isEntry
        simpa [isReadOnly_writable] using (List.mem_filter.mp isProperty).2
      | _ => simp [own, Shape.restricted, Shape.map] at shape
    | @deeper child _ nested occurs =>
      have isChild : child ∈ (s.writable d).shape.nodes := Schema.mem_children_of_nested nested
      rw [Schema.shape_writable, Shape.nodes_map] at isChild
      obtain ⟨inner, isInner, rfl⟩ := List.mem_map.mp isChild
      exact ih inner (Shape.mem_nodes_of_restricted isInner) node rule occurs shape e isEntry

end Document

end ApiContract

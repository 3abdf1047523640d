import ApiContract.Document.Basic
import Mathlib.Logic.Basic

/-!
Nesting of schemas.

`Nested` names the places at which a schema can stand directly inside another, and `Occurs` goes
down any number of them. `children`, `nodes` and `walk` list exactly what these relations describe;
`walk` is the order in which a stack of pending schemas is taken up.
-/

namespace ApiContract.ObjectRule

variable {rule : ObjectRule Schema} {name : String} {node : Schema}

theorem mem_nodes_of_property (isProperty : (name, node) ∈ rule.properties) :
    node ∈ (Shape.object rule).nodes :=
  List.mem_append_left _ (List.mem_map.mpr ⟨(name, node), isProperty, rfl⟩)

theorem mem_nodes_of_additional (additional : rule.additional = .schema node) :
    node ∈ (Shape.object rule).nodes := by
  apply List.mem_append_right
  simp [additional, Additional.nodes]

end ApiContract.ObjectRule

namespace ApiContract.Schema

def IsReference (s : Schema) : Prop := ∃ target, s.shape = .ref target

/-- The declared properties are a map: each name stands once. -/
def Keyed (s : Schema) : Prop :=
  ∀ rule, s.shape = .object rule → Entries.Distinct rule.properties

theorem keyed_object (properties : List (String × Schema)) (required : List String) :
    (object properties required).Keyed := by
  rintro rule shape
  obtain rfl := Shape.object.inj shape
  exact Entries.distinct_ofList properties

theorem keyed_of_not_object {s : Schema} (other : ∀ rule, s.shape ≠ .object rule) : s.Keyed :=
  fun rule shape => absurd shape (other rule)

/-- A node that stands directly inside a schema. -/
inductive Nested : Schema → Schema → Prop
  | item {s rule} : s.shape = .array rule → Nested rule.items s
  | property {s rule name node} : s.shape = .object rule → (name, node) ∈ rule.properties →
      Nested node s
  | additional {s rule node} : s.shape = .object rule → rule.additional = .schema node →
      Nested node s
  | intersected {s branches node} : s.shape = .allOf branches → node ∈ branches → Nested node s
  | alternative {s branches node} : s.shape = .oneOf branches → node ∈ branches → Nested node s

/-- A node that stands somewhere inside a schema, or is the schema itself. -/
inductive Occurs (node : Schema) : Schema → Prop
  | here : Occurs node node
  | deeper {child s} : Nested child s → Occurs node child → Occurs node s

theorem mem_children_of_nested {node s : Schema} (nested : Nested node s) :
    node ∈ s.children := by
  unfold children
  cases nested with
  | item shape => simp [shape, Shape.nodes]
  | property shape membership =>
    rw [shape]
    exact ObjectRule.mem_nodes_of_property membership
  | additional shape additional =>
    rw [shape]
    exact ObjectRule.mem_nodes_of_additional additional
  | intersected shape membership => simpa [shape, Shape.nodes] using membership
  | alternative shape membership => simpa [shape, Shape.nodes] using membership

theorem nested_of_mem_children {node s : Schema} (membership : node ∈ s.children) :
    Nested node s := by
  unfold children at membership
  cases shape : s.shape with
  | array rule =>
    rw [shape] at membership
    obtain rfl : node = rule.items := by simpa [Shape.nodes] using membership
    exact .item shape
  | object rule =>
    rw [shape] at membership
    rcases List.mem_append.mp membership with declared | additional
    · obtain ⟨⟨name, node⟩, entry, rfl⟩ := List.mem_map.mp declared
      exact .property shape entry
    · cases undeclared : rule.additional with
      | schema other =>
        obtain rfl : node = other := by
          simpa [undeclared, Additional.nodes] using additional
        exact .additional shape undeclared
      | unset => simp [undeclared, Additional.nodes] at additional
      | allowed flag => simp [undeclared, Additional.nodes] at additional
  | allOf branches => exact .intersected shape (by simpa [shape, Shape.nodes] using membership)
  | oneOf branches => exact .alternative shape (by simpa [shape, Shape.nodes] using membership)
  | _ => simp [shape, Shape.nodes] at membership

theorem Occurs.trans {inner middle outer : Schema} (low : Occurs inner middle)
    (high : Occurs middle outer) : Occurs inner outer := by
  induction high with
  | here => exact low
  | deeper nested _ ih => exact .deeper nested ih

theorem Occurs.child {node child s : Schema} (membership : child ∈ s.children)
    (occurs : Occurs node child) : Occurs node s :=
  .deeper (nested_of_mem_children membership) occurs

/-- Induction from the schemas inside a schema to the schema. -/
theorem nesting_induction {P : Schema → Prop}
    (step : ∀ s, (∀ child ∈ s.children, P child) → P s) (s : Schema) : P s :=
  step s fun child _ => nesting_induction step child
termination_by sizeOf s
decreasing_by exact sizeOf_lt_of_mem_children (by assumption)

/-- A listing of a schema followed by the listings of its children is complete. -/
theorem mem_listing_iff {listing : Schema → List Schema} {node s : Schema}
    (unfolds : ∀ s, node ∈ listing s ↔ node = s ∨ ∃ child ∈ s.children, node ∈ listing child) :
    node ∈ listing s ↔ Occurs node s := by
  induction s using nesting_induction with
  | step s ih =>
    rw [unfolds]
    constructor
    · rintro (rfl | ⟨child, isChild, inside⟩)
      · exact .here
      · exact .child isChild ((ih child isChild).mp inside)
    · intro occurs
      cases occurs with
      | here => exact .inl rfl
      | @deeper child _ nested occurs =>
        have isChild := mem_children_of_nested nested
        exact .inr ⟨child, isChild, (ih child isChild).mpr occurs⟩

theorem mem_nodes_iff {node s : Schema} : node ∈ s.nodes ↔ Occurs node s := by
  refine mem_listing_iff fun s => ?_
  rw [nodes_eq_cons]
  simp

/-- The schema and all schemas inside it, each before what it contains, the last child first. -/
def walk (s : Schema) : List Schema :=
  s :: (s.children.attach.map fun ⟨c, _⟩ => c.walk).reverse.flatten
termination_by sizeOf s
decreasing_by exact sizeOf_lt_of_mem_children (by assumption)

theorem walk_eq_cons (s : Schema) : s.walk = s :: s.children.reverse.flatMap walk := by
  rw [walk, List.attach_map_val, List.flatMap_def, List.map_reverse]

theorem mem_walk_iff {node s : Schema} : node ∈ s.walk ↔ Occurs node s := by
  refine mem_listing_iff fun s => ?_
  rw [walk_eq_cons]
  simp

end ApiContract.Schema

import ApiContract.Json.Basic
import ApiContract.Schema.Pattern
import ApiContract.Value.Basic

/-!
Schemas: trees of shapes with the flags that every shape may carry.

A shape is parametric in what stands at its nested places, so that `Schema` ties the knot once.
Everything that walks a schema goes through `children`.
-/

namespace ApiContract

structure StringRule where
  format : Option String := none
  pattern : Option Pattern := none
  allowed : Option (List String) := none
  minLength : Option Nat := none
  maxLength : Option Nat := none

structure NumberRule where
  integer : Bool := false
  allowed : Option (List Binary64) := none
  minimum : Option Binary64 := none
  maximum : Option Binary64 := none

/-- The rule of every element and the bounds of their count. -/
structure ArrayRule (σ : Type) where
  items : σ
  minItems : Option Nat := none
  maxItems : Option Nat := none

/-- What is said about keys that are not declared. -/
inductive Additional (σ : Type) where
  | unset
  | allowed (flag : Bool)
  | schema (node : σ)

/-- Declared properties in order, the names of required ones, and the rule for other keys. -/
structure ObjectRule (σ : Type) where
  properties : List (String × σ)
  required : List String := []
  additional : Additional σ := .unset

/-- The shapes a value is checked against. -/
inductive Shape (σ : Type) where
  | string (rule : StringRule)
  | number (rule : NumberRule)
  | boolean
  | array (rule : ArrayRule σ)
  | object (rule : ObjectRule σ)
  | allOf (branches : List σ)
  | oneOf (branches : List σ)
  | ref (target : String)
  | any
  | unknown (raw : Json)

/-- A shape, whether null is accepted, whether the server assigns the value, and what stands for a
value that is missing. -/
structure Schema where
  shape : Shape Schema
  nullable : Bool := false
  readOnly : Bool := false
  default? : Option Value := none

namespace Additional

variable {σ : Type}

def nodes : Additional σ → List σ
  | schema node => [node]
  | _ => []

end Additional

namespace Shape

variable {σ : Type}

def label : Shape σ → String
  | string _ => "string"
  | number rule => if rule.integer then "integer" else "number"
  | boolean => "boolean"
  | array _ => "array"
  | object _ => "object"
  | allOf _ => "allOf"
  | oneOf _ => "oneOf"
  | ref _ => "$ref"
  | any => "any"
  | unknown _ => "unknown"

/-- The nodes at the nested places, properties before the rule for other keys. -/
def nodes : Shape σ → List σ
  | array rule => [rule.items]
  | object rule => Entries.values rule.properties ++ rule.additional.nodes
  | allOf branches => branches
  | oneOf branches => branches
  | _ => []

end Shape

namespace Schema

instance : Inhabited Schema := ⟨{ shape := .any }⟩

def plain (shape : Shape Schema) : Schema := { shape }

def string : Schema := plain (.string {})

def stringFormat (format : String) : Schema := plain (.string { format := some format })

def number : Schema := plain (.number {})

def integer : Schema := plain (.number { integer := true })

def boolean : Schema := plain .boolean

def array (items : Schema) : Schema := plain (.array { items })

/-- An object with declared properties and required names, each of them once. -/
def object (properties : List (String × Schema)) (required : List String) : Schema :=
  plain (.object { properties := Entries.ofList properties, required := required.eraseDups })

def allOf (branches : List Schema) : Schema := plain (.allOf branches)

def oneOf (branches : List Schema) : Schema := plain (.oneOf branches)

def reference (target : String) : Schema := plain (.ref target)

def any : Schema := plain .any

def unknown (raw : Json) : Schema := plain (.unknown raw)

def asNullable (s : Schema) : Schema := { s with nullable := true }

def asReadOnly (s : Schema) : Schema := { s with readOnly := true }

def withDefault (s : Schema) (v : Value) : Schema := { s with default? := some v }

def withAdditional (s : Schema) (additional : Additional Schema) : Schema :=
  match s.shape with
  | .object rule => { s with shape := .object { rule with additional } }
  | _ => s

def isAny (s : Schema) : Bool :=
  match s.shape with
  | .any => true
  | _ => false

def children (s : Schema) : List Schema := s.shape.nodes

theorem sizeOf_lt_of_mem_nodes {shape : Shape Schema} {c : Schema} (h : c ∈ shape.nodes) :
    sizeOf c < sizeOf shape := by
  cases shape with
  | array rule =>
    obtain ⟨items, lo, hi⟩ := rule
    obtain rfl : c = items := by simpa [Shape.nodes] using h
    simp only [Shape.array.sizeOf_spec, ArrayRule.mk.sizeOf_spec]; omega
  | object rule =>
    obtain ⟨properties, required, additional⟩ := rule
    simp only [Shape.object.sizeOf_spec, ObjectRule.mk.sizeOf_spec]
    rcases List.mem_append.1 h with h | h
    · obtain ⟨⟨k, s⟩, he, rfl⟩ := List.mem_map.1 h
      have hlt : sizeOf (k, s) < sizeOf properties := List.sizeOf_lt_of_mem he
      simp only [Prod.mk.sizeOf_spec] at hlt ⊢
      omega
    · cases additional with
      | schema node =>
        obtain rfl : c = node := by simpa [Additional.nodes] using h
        simp only [Additional.schema.sizeOf_spec]; omega
      | _ => simp [Additional.nodes] at h
  | allOf branches =>
    have : sizeOf c < sizeOf branches := List.sizeOf_lt_of_mem h
    simp only [Shape.allOf.sizeOf_spec]; omega
  | oneOf branches =>
    have : sizeOf c < sizeOf branches := List.sizeOf_lt_of_mem h
    simp only [Shape.oneOf.sizeOf_spec]; omega
  | _ => simp [Shape.nodes] at h

theorem sizeOf_lt_of_mem_children {s c : Schema} (h : c ∈ s.children) : sizeOf c < sizeOf s := by
  have := sizeOf_lt_of_mem_nodes h
  obtain ⟨shape, nullable, readOnly, default?⟩ := s
  simp only [Schema.mk.sizeOf_spec] at this ⊢
  omega

/-- The schema and all schemas inside it, each before what it contains. -/
def nodes (s : Schema) : List Schema :=
  s :: (s.children.attach.map fun ⟨c, _⟩ => c.nodes).flatten
termination_by sizeOf s
decreasing_by exact sizeOf_lt_of_mem_children (by assumption)

theorem nodes_eq_cons (s : Schema) : s.nodes = s :: s.children.flatMap nodes := by
  rw [nodes, List.attach_map_val, List.flatMap_def]

end Schema

end ApiContract

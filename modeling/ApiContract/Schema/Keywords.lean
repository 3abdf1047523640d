import ApiContract.Json.Basic

/-!
The keywords of a schema object that the library knows.

A schema object is read as a record: unknown keys are ignored and null stands for an absent keyword.
A list is read as the same record by position. Nested schemas are kept as parts of the object they
were found in, so that what walks them gets smaller.
-/

namespace ApiContract

/-- JSON that lies inside `raw`. -/
structure Part (raw : Json) where
  json : Json
  inside : sizeOf json < sizeOf raw

inductive TypeNames where
  | single (name : String)
  | several (names : List String)
deriving DecidableEq

structure Keywords (raw : Json) where
  reference : Option String
  types : Option TypeNames
  format : Option String
  pattern : Option String
  allowed : Option (List Json)
  minLength : Option Nat
  maxLength : Option Nat
  minimum : Option Binary64
  maximum : Option Binary64
  minItems : Option Nat
  maxItems : Option Nat
  items : Option (Part raw)
  properties : Option (List (String × Part raw))
  required : List String
  additional : Option (Part raw)
  allOf : Option (List (Part raw))
  oneOf : Option (List (Part raw))
  anyOf : Option (List (Part raw))
  nullable : Bool
  readOnly : Bool
  default? : Option Json

namespace Json

theorem sizeOf_lt_of_mem_items {items : List Json} {j : Json} (h : j ∈ items) :
    sizeOf j < sizeOf (array items) := by
  have := List.sizeOf_lt_of_mem h
  simp only [array.sizeOf_spec]
  omega

theorem sizeOf_lt_of_mem_members {members : List (String × Json)} {e : String × Json}
    (h : e ∈ members) : sizeOf e.2 < sizeOf (object members) := by
  have := List.sizeOf_lt_of_mem h
  obtain ⟨k, j⟩ := e
  simp only [object.sizeOf_spec, Prod.mk.sizeOf_spec] at *
  omega

def partItems {raw : Json} (p : Part raw) : Option (List (Part raw)) :=
  match p with
  | ⟨array items, h⟩ =>
    some (items.attach.map fun j => ⟨j.1, Nat.lt_trans (sizeOf_lt_of_mem_items j.2) h⟩)
  | _ => none

def partMembers {raw : Json} (p : Part raw) : Option (List (String × Part raw)) :=
  match p with
  | ⟨object members, h⟩ =>
    some (members.attach.map fun m =>
      (m.1.1, ⟨m.1.2, Nat.lt_trans (sizeOf_lt_of_mem_members m.2) h⟩))
  | _ => none

end Json

namespace Keywords

def names : List String :=
  ["$ref", "type", "format", "pattern", "enum", "minLength", "maxLength", "minimum", "maximum",
    "minItems", "maxItems", "items", "properties", "required", "additionalProperties", "allOf",
    "oneOf", "anyOf", "nullable", "readOnly", "default"]

/-- The keywords that are given, by name. A list gives them by position and may stop early. -/
def given? (raw : Json) : Option (List (String × Part raw)) :=
  match raw with
  | .object members =>
    some (members.attach.map fun m => (m.1.1, ⟨m.1.2, Json.sizeOf_lt_of_mem_members m.2⟩))
  | .array items =>
    if names.length < items.length then none
    else
      some (names.zip (items.attach.map fun j => ⟨j.1, Json.sizeOf_lt_of_mem_items j.2⟩))
  | _ => none

section

variable {raw : Json} {α : Type}

/-- An optional keyword: null counts as absent, and what is present must be readable. -/
def optional (given : List (String × Part raw)) (name : String) (read : Part raw → Option α) :
    Option (Option α) :=
  match Entries.get? given name with
  | none => some none
  | some p =>
    match p.json with
    | .null => some none
    | _ => (read p).map some

/-- A keyword with a value for its absence; null is no value. -/
def defaulting (given : List (String × Part raw)) (name : String) (absent : α)
    (read : Part raw → Option α) : Option α :=
  match Entries.get? given name with
  | none => some absent
  | some p => read p

def text? (p : Part raw) : Option String := p.json.string?

def flag? (p : Part raw) : Option Bool := p.json.bool?

def number? (p : Part raw) : Option Binary64 := p.json.binary64?

/-- A count was written as an integer. -/
def count? (p : Part raw) : Option Nat :=
  match p.json with
  | .number n => n.toNat?
  | _ => none

def list? (p : Part raw) : Option (List Json) := p.json.array?

def texts? (p : Part raw) : Option (List String) :=
  p.json.array?.bind fun js => js.mapM Json.string?

def types? (p : Part raw) : Option TypeNames :=
  match p.json with
  | .string name => some (.single name)
  | _ => (texts? p).map .several

/-- Reads the keywords; `none` if the record is malformed. -/
def ofJson? (raw : Json) : Option (Keywords raw) := do
  let given ← given? raw
  return {
    reference := ← optional given "$ref" text?
    types := ← optional given "type" types?
    format := ← optional given "format" text?
    pattern := ← optional given "pattern" text?
    allowed := ← optional given "enum" list?
    minLength := ← optional given "minLength" count?
    maxLength := ← optional given "maxLength" count?
    minimum := ← optional given "minimum" number?
    maximum := ← optional given "maximum" number?
    minItems := ← optional given "minItems" count?
    maxItems := ← optional given "maxItems" count?
    items := ← optional given "items" some
    properties := ← optional given "properties" Json.partMembers
    required := ← defaulting given "required" [] texts?
    additional := ← optional given "additionalProperties" some
    allOf := ← optional given "allOf" Json.partItems
    oneOf := ← optional given "oneOf" Json.partItems
    anyOf := ← optional given "anyOf" Json.partItems
    nullable := ← defaulting given "nullable" false flag?
    readOnly := ← defaulting given "readOnly" false flag?
    default? := ← optional given "default" fun p => some p.json }

end

end Keywords

end ApiContract

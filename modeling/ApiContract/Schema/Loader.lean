import ApiContract.Schema.Basic
import ApiContract.Schema.Fault
import ApiContract.Schema.Keywords
import ApiContract.Schema.Normal
import ApiContract.Value.Json

/-!
Loading schemas from JSON.

The shape of a schema object is decided by the first of: a reference, `allOf`, `oneOf` or `anyOf`,
the type. Without a type, property keywords mean an object and `items` means an array. A type or a
combination that the library does not know is kept as it is.
-/

namespace ApiContract

namespace Schema

/-- Keywords that say nothing about the value. -/
def annotations : List String :=
  ["description", "title", "nullable", "readOnly", "writeOnly", "default", "example", "deprecated"]

/-- A schema object with annotations and extensions only. -/
def isUnconstrained : Json → Bool
  | .object members =>
    (Entries.keys members).all fun k => annotations.contains k || "x-".isPrefixOf k
  | _ => false

/-- What the type keyword and its neighbours say about the shape. -/
inductive TypeHint where
  | named (name : String)
  | absent
  | mixed
deriving DecidableEq

def TypeHint.ofKeywords {raw : Json} (k : Keywords raw) : TypeHint :=
  match k.types with
  | some (.single name) => named name
  | some (.several [name]) => named name
  | some (.several []) => absent
  | some (.several _) => mixed
  | none =>
    if k.properties.isSome || k.additional.isSome then named "object"
    else if k.items.isSome then named "array"
    else absent

def pattern? : Option String → Except SchemaFault (Option Pattern)
  | none => .ok none
  | some source =>
    match Pattern.ofSource? source with
    | some p => .ok (some p)
    | none => .error (.invalidPattern source)

def stringRule {raw : Json} (k : Keywords raw) : Except SchemaFault StringRule := do
  return {
    format := k.format
    pattern := ← pattern? k.pattern
    allowed := k.allowed.map fun js => js.filterMap Json.string?
    minLength := k.minLength
    maxLength := k.maxLength }

def numberRule {raw : Json} (k : Keywords raw) (integer : Bool) : NumberRule where
  integer := integer
  allowed := k.allowed.map fun js => js.filterMap Json.binary64?
  minimum := k.minimum
  maximum := k.maximum

/-- Reads a schema that is already in normal form. -/
def ofNormal (raw : Json) : Except SchemaFault Schema :=
  match Keywords.ofJson? raw with
  | none => .error (.malformed raw)
  | some k => do
    let shape ← shapeOf k
    return {
      shape
      nullable := k.nullable
      readOnly := k.readOnly
      default? := k.default?.map Value.ofJson }
termination_by (sizeOf raw, 1)
where
  /-- The shape that the keywords describe. -/
  shapeOf {raw : Json} (k : Keywords raw) : Except SchemaFault (Shape Schema) :=
    match k.reference with
    | some target => .ok (.ref target)
    | none =>
      match k.allOf with
      | some branches => return .allOf (← branches.mapM fun b => ofNormal b.json)
      | none =>
        match k.oneOf <|> k.anyOf with
        | some branches => return .oneOf (← branches.mapM fun b => ofNormal b.json)
        | none =>
          match TypeHint.ofKeywords k with
          | .mixed => .ok (.unknown raw)
          | .absent => .ok (if isUnconstrained raw then .any else .unknown raw)
          | .named "string" => return .string (← stringRule k)
          | .named "number" => .ok (.number (numberRule k false))
          | .named "integer" => .ok (.number (numberRule k true))
          | .named "boolean" => .ok .boolean
          | .named "array" => do
            let items ← match k.items with
              | some items => ofNormal items.json
              | none => pure Schema.any
            return .array { items, minItems := k.minItems, maxItems := k.maxItems }
          | .named "object" => do
            let properties ← (k.properties.getD []).mapM fun p => do
              let node ← ofNormal p.2.json
              return (p.1, node)
            let additional ← match k.additional with
              | none => pure Additional.unset
              | some ⟨.bool flag, _⟩ => pure (Additional.allowed flag)
              | some part => do
                let node ← ofNormal part.json
                pure (Additional.schema node)
            return .object { properties, required := k.required.eraseDups, additional }
          | .named _ => .ok (.unknown raw)
  termination_by (sizeOf raw, 0)
  decreasing_by all_goals exact Prod.Lex.left _ _ (Part.inside _)

def ofJson (raw : Json) : Except SchemaFault Schema := ofNormal raw.normalSchema

end Schema

end ApiContract

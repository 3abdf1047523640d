import ApiContract.Validation.Composite
import ApiContract.Validation.Scalar

/-!
Checking a value against a schema.

`step` says what a check does in terms of checks of what is inside the value and of checks of the
same value against branches. A check goes down in the value only as far as the value is deep. But
references, `allOf` and `oneOf` can lead from a schema back to itself while the value stays the
same; such a check has no end. Along a chain that does not come back, every node stands once, so a
chain with more links than there are nodes is endless.
-/

namespace ApiContract

namespace Validator

/-- What null is accepted as, by the flags of a node and of the node it refers to. -/
def checkNull (path : Path) (schema target : Schema) : Validation :=
  if schema.nullable || target.nullable then
    Report.ok ((schema.default? <|> target.default?).getD .null)
  else Validation.refuse path .notNullable .null

/-- One step of a check: `inside` checks what is inside the value, `across` the value itself. -/
def step (d : Validator) (inside across : Check) : Check := fun path v schema parent => do
  let target ← Report.ofExcept ((d.document.resolve schema).mapError .schema)
  if v.isNull then checkNull path schema target
  else
    match target.shape with
    | .string rule => checkString path v rule
    | .number rule => d.checkNumber path v rule
    | .boolean => checkBoolean path v
    | .array rule => checkArray inside path v rule
    | .object rule => d.checkObject inside path v rule parent
    | .allOf branches => checkAllOf across path v branches
    | .oneOf branches => checkOneOf across path v branches
    | .any => return v
    | .ref reference => Report.fail (.schema (.notConcrete reference))
    | .unknown raw =>
      Report.emit (.unsupportedShape path raw)
      return v

def giveUp : Check := fun _ _ _ _ => Report.fail .endless

/-- A check in which a chain of branches has at most a number of links. -/
def chain (d : Validator) (inside : Check) : Nat → Check
  | 0 => giveUp
  | links + 1 => d.step inside (d.chain inside links)

/-- A check that goes down a number of levels, with chains of bounded length at each of them. -/
def checkWithin (d : Validator) (links : Nat) : Nat → Check
  | 0 => giveUp
  | levels + 1 => d.chain (d.checkWithin links levels) links

/-- The nodes that a check of a schema can come to: those of the document and of the schema. -/
def scope (d : Validator) (schema : Schema) : List Schema :=
  (Entries.values d.document.schemas).flatMap Schema.nodes ++ schema.nodes

def nodeCount (d : Validator) (schema : Schema) : Nat := (d.scope schema).length

/-- Checks a value against a schema and coerces it. -/
def validate (d : Validator) : Check := fun path v schema parent =>
  d.checkWithin (d.nodeCount schema) (v.depth + 1) path v schema parent

end Validator

end ApiContract

import ApiContract.Json.Basic

/-!
One dialect for schema documents.

Three passes over the raw JSON bring the spellings of several versions of the schema language
together: boolean schemas become objects, `const` becomes a list of one, and every way to say that
null is accepted becomes `nullable: true`. The last two passes walk by key and leave the values of
`dataKeys` alone, since those are data and not schemas.
-/

namespace ApiContract

namespace Json

def dataKeys : List String := ["default", "example", "examples", "enum", "const"]

def branchKeys : List String := ["allOf", "oneOf", "anyOf"]

/-- The union without a branch, which nothing matches. -/
def never : Json := object [("oneOf", array [])]

mutual

/-- Turns `true` and `false` in schema positions into objects. -/
def withoutBooleans : Json → Json
  | bool accepts => if accepts then object [] else never
  | object members => object (membersWithoutBooleans members)
  | other => other

def membersWithoutBooleans : List (String × Json) → List (String × Json)
  | [] => []
  | (key, object inner) :: rest =>
    (key,
      if key = "properties" then object (valuesWithoutBooleans inner)
      else if key = "items" ∨ key = "additionalProperties" then
        object (membersWithoutBooleans inner)
      else object inner) :: membersWithoutBooleans rest
  | (key, array items) :: rest =>
    (key, if key ∈ branchKeys then array (itemsWithoutBooleans items) else array items) ::
      membersWithoutBooleans rest
  | (key, other) :: rest =>
    (key, if key = "items" then withoutBooleans other else other) :: membersWithoutBooleans rest

def valuesWithoutBooleans : List (String × Json) → List (String × Json)
  | [] => []
  | (key, j) :: rest => (key, withoutBooleans j) :: valuesWithoutBooleans rest

def itemsWithoutBooleans : List Json → List Json
  | [] => []
  | j :: rest => withoutBooleans j :: itemsWithoutBooleans rest

end

def constType? : Json → Option String
  | string _ => some "string"
  | bool _ => some "boolean"
  | number (.integer _) => some "integer"
  | number (.real _) => some "number"
  | array _ => some "array"
  | object _ => some "object"
  | null => none

/-- Replaces `const` by a list of one, and by a type where none is given. -/
def listConst (members : Entries Json) : Entries Json :=
  match Entries.get? members "const" with
  | none => members
  | some c =>
    let ms := Entries.swapRemove members "const"
    let ms := if Entries.contains ms "enum" then ms else Entries.insert ms "enum" (array [c])
    match constType? c with
    | some t => if Entries.contains ms "type" then ms else Entries.insert ms "type" (string t)
    | none => ms

mutual

def withoutConst : Json → Json
  | object members => object (listConst (membersWithoutConst members))
  | array items => array (itemsWithoutConst items)
  | other => other

def membersWithoutConst : List (String × Json) → List (String × Json)
  | [] => []
  | (key, j) :: rest =>
    (key, if key ∈ dataKeys then j else withoutConst j) :: membersWithoutConst rest

def itemsWithoutConst : List Json → List Json
  | [] => []
  | j :: rest => withoutConst j :: itemsWithoutConst rest

end

def isNullName (j : Json) : Bool := j.string? == some "null"

/-- The branch that accepts null alone. -/
def isNullBranch (j : Json) : Bool := (j.get? "type").any isNullName

/-- Members of a schema object and whether null was found to be accepted. -/
structure NullScan where
  members : Entries Json
  nullable : Bool

def scanFlag (s : NullScan) : NullScan :=
  match Entries.get? s.members "x-nullable" with
  | none => s
  | some flag => ⟨Entries.swapRemove s.members "x-nullable", s.nullable || flag.bool? == some true⟩

/-- Takes null out of a list of types; a list of one becomes a name and an empty one disappears. -/
def scanTypes (s : NullScan) : NullScan :=
  match Entries.get? s.members "type" with
  | some (array types) =>
    let rest := types.filter fun t => !isNullName t
    let members := match rest with
      | [] => Entries.swapRemove s.members "type"
      | [t] => Entries.insert s.members "type" t
      | _ => Entries.insert s.members "type" (array rest)
    ⟨members, s.nullable || types.any isNullName⟩
  | _ => s

/-- Takes null branches out of a union. A single branch that is left becomes the whole of an
`allOf`. -/
def scanUnion (key : String) (s : NullScan) : NullScan :=
  match Entries.get? s.members key with
  | some (array branches) =>
    let rest := branches.filter fun b => !isNullBranch b
    if rest.length = branches.length then s
    else
      match rest with
      | [only] =>
        ⟨Entries.insert (Entries.swapRemove s.members key) "allOf" (array [only]), true⟩
      | _ => ⟨Entries.insert s.members key (array rest), true⟩
  | _ => s

/-- Brings every spelling of nullability in one schema object to `nullable`. -/
def flagNull (members : Entries Json) : Entries Json :=
  let s := scanUnion "anyOf" (scanUnion "oneOf" (scanTypes (scanFlag ⟨members, false⟩)))
  if s.nullable then Entries.insert s.members "nullable" (bool true) else s.members

mutual

def withNullable : Json → Json
  | object members => object (flagNull (membersWithNullable members))
  | array items => array (itemsWithNullable items)
  | other => other

def membersWithNullable : List (String × Json) → List (String × Json)
  | [] => []
  | (key, j) :: rest =>
    (key, if key ∈ dataKeys then j else withNullable j) :: membersWithNullable rest

def itemsWithNullable : List Json → List Json
  | [] => []
  | j :: rest => withNullable j :: itemsWithNullable rest

end

def normalSchema (j : Json) : Json := j.withoutBooleans.withoutConst.withNullable

end Json

end ApiContract

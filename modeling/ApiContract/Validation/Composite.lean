import ApiContract.Validation.Undeclared

/-!
Arrays, objects, `allOf` and `oneOf`, given a check for what is inside them.

A composite succeeds with a coerced value or fails with the first failure in order; a union tries
all of its branches.
-/

namespace ApiContract

namespace Validator

/-- The bound on the count of elements that an array violates. -/
def countViolation? (rule : ArrayRule Schema) (count : Nat) : Option Reason :=
  (rule.minItems.bind fun n => Reason.unlessHolds (n ≤ count) (.tooFewItems n)) <|>
  (rule.maxItems.bind fun n => Reason.unlessHolds (count ≤ n) (.tooManyItems n))

def checkArray (check : Check) (path : Path) (v : Value) (rule : ArrayRule Schema) :
    Validation :=
  match v with
  | .array items =>
    match countViolation? rule items.length with
    | some reason => Validation.refuse path reason v
    | none => do
      let coerced ← items.zipIdx.mapM fun (item, i) =>
        check (path.child (.index i)) item rule.items .array
      return .array coerced
  | _ => Validation.refuse path .notArray v

/-- A declared property: its node and the node at the end of its references. -/
structure Declared where
  name : String
  node : Schema
  target : Schema

def Declared.isReadOnly (p : Declared) : Bool := p.node.readOnly || p.target.readOnly

def Declared.default? (p : Declared) : Option Value := p.node.default? <|> p.target.default?

def declared (d : Document) (properties : List (String × Schema)) :
    Except SchemaFault (List Declared) := do
  let all ← properties.mapM fun (name, node) => do
    return { name, node, target := ← d.resolve node : Declared }
  return all.filter fun p => !p.isReadOnly

def checkProperty (check : Check) (path : Path) (required : List String)
    (members : Entries Value) (p : Declared) : Report CheckError (Option (String × Value)) :=
  let place := path.child (.key p.name)
  match members.get? p.name with
  | some v => do
    let coerced ← check place v p.node .object
    return some (p.name, coerced)
  | none =>
    if required.contains p.name then
      if p.target.isAny then Report.ok none
      else Report.fail (.invalid { path := place, reason := .propertyMissing p.name })
    else Report.ok (p.default?.map (p.name, ·))

/-- Handles the members that are not declared, and gives those that stay in the result. -/
def checkUndeclared (d : Validator) (check : Check) (path : Path) (v : Value) (parent : Parent)
    (rule : ObjectRule Schema) (undeclared : List (String × Value)) :
    Report CheckError (List (String × Value)) :=
  let keys := undeclared.map Prod.fst
  match rule.additional.fate d.switches parent keys with
  | .reject => Validation.refuse path (.undeclaredKeys keys) v
  | .warn => ⟨[.undeclaredStripped path keys], .ok []⟩
  | .copy => Report.ok undeclared
  | .check node =>
    undeclared.mapM fun (key, w) => do
      return (key, ← check (path.child (.key key)) w node .object)
  | .drop => Report.ok []

def checkObject (d : Validator) (check : Check) (path : Path) (v : Value)
    (rule : ObjectRule Schema) (parent : Parent) : Validation :=
  match v with
  | .object members => do
    let properties ← Report.ofExcept ((declared d.document rule.properties).mapError .schema)
    let entries ← properties.mapM (checkProperty check path rule.required members)
    let undeclared := members.filter fun e => properties.all fun p => p.name ≠ e.1
    let extra ← checkUndeclared d check path v parent rule undeclared
    return .object (entries.filterMap id ++ extra)
  | _ => Validation.refuse path .notObject v

/-- Two objects are merged, the later value of a key winning; otherwise the later value stays. -/
def merge : Value → Value → Value
  | .object members, .object more => .object (Entries.extend members more)
  | _, later => later

/-- All branches must accept the value; their results are merged in order. -/
def checkAllOf (check : Check) (path : Path) (v : Value) (branches : List Schema) :
    Validation := do
  match ← branches.mapM fun branch => check path v branch .allOf with
  | [] => return v
  | first :: rest => return rest.foldl merge first

/-- Tries a branch. Failures are logged and passed over; faults of the schema are not. -/
def tryBranch (check : Check) (path : Path) (v : Value) (branch : Schema) (index : Nat) :
    Report CheckError (Option (Nat × Value)) := do
  match ← (check path v branch .oneOf).attempt with
  | .ok w => return some (index, w)
  | .error (.invalid failure) =>
    Report.emit (.branchRejected path index failure)
    return none
  | .error cause => Report.fail cause

/-- Whether a later result is an object with more keys than an earlier one. -/
def isRicher : Value → Value → Bool
  | .object members, .object more => members.length < more.length
  | _, _ => false

/-- The earliest of the objects with most keys; of other values the first. -/
def richest : List (Nat × Value) → Option (Nat × Value)
  | [] => none
  | first :: rest => some (rest.foldl (fun best w => if isRicher best.2 w.2 then w else best) first)

/-- At least one branch must accept the value; the richest result is taken. -/
def checkOneOf (check : Check) (path : Path) (v : Value) (branches : List Schema) :
    Validation := do
  let results ← branches.zipIdx.mapM fun (branch, i) => tryBranch check path v branch i
  match richest (results.filterMap id) with
  | some (index, w) =>
    Report.emit (.branchSelected path index)
    return w
  | none => Validation.refuse path .noBranch v

end Validator

end ApiContract

import ApiContract.Document.Basic
import ApiContract.Report
import ApiContract.Switches

/-!
What a check of a value against a schema is given, and what it returns.
-/

namespace ApiContract

/-- What contains the node that is checked. Inside a branch of `allOf` undeclared keys are not
judged, because each branch sees the keys of its siblings. -/
inductive Parent where
  | allOf
  | oneOf
  | array
  | object
  | unknown
deriving DecidableEq

/-- The document that references point into, the switches for undeclared keys, and whether values
are decoded payloads, in which numbers are never written as text. -/
structure Validator where
  document : Document := {}
  switches : Switches := {}
  typedPayload : Bool := false

def Validator.forPayload (v : Validator) : Validator := { v with typedPayload := true }

/-- The coerced value or what stopped the check, and the events on the way. -/
abbrev Validation := Report CheckError Value

/-- A check of a value at a place against a schema inside a parent. -/
abbrev Check := Path → Value → Schema → Parent → Validation

namespace Validation

def refuse {α : Type} (path : Path) (reason : Reason) (value : Value) : Report CheckError α :=
  Report.fail (.invalid (.echoing path reason value))

end Validation

end ApiContract

import ApiContract.Json.Printer

/-!
The two switches that say what happens to object keys a schema does not declare.
-/

namespace ApiContract

/-- With both switches off, undeclared keys are dropped without a word. -/
structure Switches where
  logUndeclared : Bool := false
  rejectUndeclared : Bool := false
deriving DecidableEq

namespace Switches

def isStrict (s : Switches) : Bool := s.logUndeclared || s.rejectUndeclared

def logKey : String := "logUnexpectedAdditionalData"

def rejectKey : String := "throwUnexpectedAdditionalData"

def toJson (s : Switches) : Json :=
  .object [(logKey, .bool s.logUndeclared), (rejectKey, .bool s.rejectUndeclared)]

end Switches

end ApiContract

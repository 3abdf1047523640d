import ApiContract.Failure
import ApiContract.Schema.Fault
import ApiContract.Value.Json

/-!
Faults at the boundary: what a caller gets instead of arguments or a checked response.

Inside validation a check is stopped by a failure of the value, by a fault of the schema, or because
the schema refers to itself without ever reaching into the value (`endless`). Union resolution
swallows failures only.
-/

namespace ApiContract

/-- Who has to mend a rejected value: the caller who sent it or the server that made it. -/
inductive Severity where
  | client
  | server
deriving DecidableEq

def Severity.text : Severity → String
  | client => "client"
  | server => "server"

def Severity.status : Severity → Nat
  | client => 400
  | server => 500

structure FieldFault where
  reason : Reason
  value : Option Value := none

/-- A rejected request or response: a summary and the fields at fault by their dotted paths. -/
structure Rejection where
  summary : Reason
  fields : List (String × FieldFault)
  severity : Severity

/-- What stops a check. -/
inductive CheckError where
  | invalid (failure : Failure)
  | schema (cause : SchemaFault)
  | endless

/-- What a caller gets instead of a result. -/
inductive Fault where
  | rejected (rejection : Rejection)
  | schema (cause : SchemaFault)
  | json
  | yaml
  | general (text : String)
  | endless

namespace FieldFault

def toMembers (f : FieldFault) : List (String × String) :=
  ("message", Json.quote f.reason.message) ::
    match f.value with
    | some v => [("value", v.write)]
    | none => []

end FieldFault

def writtenObject (members : List (String × String)) : String :=
  "\x7b" ++ ",".intercalate (members.map fun m => Json.quote m.1 ++ ":" ++ m.2) ++ "\x7d"

namespace Rejection

def text (r : Rejection) : String :=
  r.summary.message ++ " (" ++ toString r.fields.length ++ " field error(s))"

def write (r : Rejection) : String :=
  writtenObject [
    ("message", Json.quote r.summary.message),
    ("fields", writtenObject (r.fields.map fun e => (e.1, writtenObject e.2.toMembers))),
    ("severity", Json.quote r.severity.text)]

def escalate (r : Rejection) : Rejection := { r with severity := .server }

def ofFailure (severity : Severity) (f : Failure) : Rejection :=
  { summary := f.reason, fields := [(f.path.text, ⟨f.reason, f.value⟩)], severity }

def single (severity : Severity) (summary : Reason) (field : String) (fault : FieldFault) :
    Rejection :=
  { summary, fields := [(field, fault)], severity }

end Rejection

namespace Fault

/-- The status that answers the fault; only rejections can be the caller's. -/
def status : Fault → Nat
  | rejected r => r.severity.status
  | _ => 500

def text : Fault → String
  | rejected r => "Validation Error: " ++ r.text
  | schema cause => SchemaFault.announced cause.message
  | json => "JSON Error: "
  | yaml => "YAML Error: "
  | general text => "General Error: " ++ text
  | endless => "Endless schema"

end Fault

namespace CheckError

def text : CheckError → String
  | invalid f => f.text
  | schema cause => cause.message
  | endless => Fault.endless.text

/-- The fault at the boundary; failures are given a severity. -/
def toFault (severity : Severity) : CheckError → Fault
  | invalid f => .rejected (.ofFailure severity f)
  | schema cause => .schema cause
  | endless => .endless

/-- A fault met during a check. All but faults of the schema are kept as their text. -/
def ofFault : Fault → CheckError
  | .schema cause => schema cause
  | .endless => endless
  | other => schema (.stated other.text)

end CheckError

end ApiContract

import ApiContract.Binding.Parameter
import ApiContract.Validation.Engine

/-!
Checking what a handler returns against the declared responses. Whatever does not fit is the
server's fault.
-/

namespace ApiContract

/-- Content by status: a code such as `200`, a range such as `2XX`, or `default`. No content at all
declares a response without a body. -/
abbrev Responses := Entries Content

namespace Responses

def range (status : Nat) : String := toString (status / 100) ++ "XX"

/-- The content for a status: by its code, by its range in either case, or by default. -/
def lookup (rules : Responses) (status : Nat) : Except SchemaFault Content :=
  let found :=
    rules.get? (toString status) <|> rules.get? (range status) <|>
      rules.get? (Request.lowerCase (range status)) <|> rules.get? "default"
  match found with
  | some content => .ok content
  | none => .error (.noResponse status)

end Responses

def responseRoot : String := "response"

def reportMismatch {α : Type} (status : Nat) (x : Report CheckError α) : Report Fault α :=
  match x.outcome with
  | .ok a => ⟨x.log, .ok a⟩
  | .error e => ⟨x.log ++ [.responseMismatch status e], .error (e.toFault .server)⟩

namespace Validator

/-- The coerced payload. Where the content type is not registered, nothing but null may be
returned; else a missing payload is checked as null. -/
def validateResponse (d : Validator) (rules : Responses) (status : Nat)
    (contentType? : Option String) (payload? : Option Value) : Report Fault (Option Value) := do
  let content ← Report.ofExcept ((rules.lookup status).mapError .schema)
  let contentType := contentType?.getD defaultContentType
  match content.schemaFor? contentType with
  | none =>
    if payload?.all Value.isNull then return payload?
    else
      Report.emit (.undeclaredContent status contentType)
      Report.fail (contentTypeNotAllowed .server responseRoot contentType)
  | some schema =>
    let payload := payload?.getD .null
    let checked := d.forPayload.validate { root := responseRoot } payload schema .unknown
    return some (← reportMismatch status checked)

end Validator

end ApiContract

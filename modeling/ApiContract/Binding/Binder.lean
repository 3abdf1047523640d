import ApiContract.Binding.Parameter
import ApiContract.Validation.Engine

/-!
From a raw request to the arguments of a handler.

Parameters are bound in order, and the first fault ends the binding. The schema of a parameter is
resolved before its presence is looked at, and the schema of a body is chosen before that too.
-/

namespace ApiContract

namespace Request

def raw? (r : Request) (location : Location) (name : String) : Option Value :=
  match location with
  | .query => r.query? name
  | .header => r.header? name
  | .path => r.pathValue? name
  | _ => none

end Request

/-- A query value as its schema sees it: an empty text is true, and a single text is an array. -/
def adaptQuery (location : Location) (shape : Shape Schema) : Value → Value
  | .string s =>
    match location, shape with
    | .query, .boolean => if s = "" then .bool true else .string s
    | .query, .array _ => .array [.string s]
    | _, _ => .string s
  | v => v

/-- What stands for a value that is absent. -/
def Parameter.absent (p : Parameter) : Report Fault Argument :=
  if p.isRequired then Report.fail (missingParameter p.name) else Report.ok .undefined

namespace Validator

def accept (d : Validator) (root : String) (v : Value) (schema : Schema) :
    Report Fault Argument := do
  let w ← (d.validate { root } v schema .unknown).mapError (CheckError.toFault .client)
  return .value w

def bindText (d : Validator) (r : Request) (p : Parameter) : Report Fault Argument := do
  let target ← Report.ofExcept ((d.document.resolve p.schema).mapError .schema)
  match r.raw? p.location p.name with
  | none => p.absent
  | some raw => d.accept p.name (adaptQuery p.location target.shape raw) p.schema

/-- The schema of a body: the one the discriminator names, or else the one of the content type. -/
def bodySchema (rule : BodyRule) (r : Request) (registered : Schema) : Report Fault Schema := do
  match rule.discriminator? with
  | none => return registered
  | some choose =>
    let name ← Report.ofExcept (choose r)
    Report.emit (.bodySchemaChosen name)
    return .reference name

/-- Binds a body. Its content type must be registered, whatever chooses the schema. -/
def bindBody (d : Validator) (rule? : Option BodyRule) (r : Request) (p : Parameter) :
    Report Fault Argument := do
  match rule? with
  | none => Report.fail (.schema (.noBodyDescriptor p.name))
  | some rule =>
    let contentType := r.contentType?.getD defaultContentType
    match rule.content.schemaFor? contentType with
    | none => Report.fail (contentTypeNotAllowed .client p.name contentType)
    | some registered =>
      let schema ← bodySchema rule r registered
      match r.body? with
      | none => p.absent
      | some body => d.forPayload.accept bodyRoot body schema

def bindParameter (d : Validator) (rule? : Option BodyRule) (r : Request) (p : Parameter) :
    Report Fault Argument :=
  match p.location with
  | .request => Report.ok (.request r)
  | .body => d.bindBody rule? r p
  | _ => d.bindText r p

def bindAll (d : Validator) (rule? : Option BodyRule) (r : Request) :
    List Parameter → Report Fault (List Argument)
  | [] => Report.ok []
  | p :: rest => do
    let argument ← d.bindParameter rule? r p
    return argument :: (← d.bindAll rule? r rest)

/-- The arguments of a route for a request. -/
def bind (d : Validator) (route : Route) (r : Request) : Report Fault (List Argument) :=
  d.bindAll route.body? r route.parameters

end Validator

end ApiContract

import ApiContract.Binding.Content
import ApiContract.Fault

/-!
Parameters of a route: where their values come from and what they have to satisfy.
-/

namespace ApiContract

/-- Where the value of a parameter comes from. -/
inductive Location where
  | query
  | header
  | path
  /-- The request itself, passed on as it is. -/
  | request
  | body
deriving DecidableEq

namespace Location

def name : Location → String
  | query => "query"
  | header => "header"
  | path => "path"
  | request => "request"
  | body => "body"

def all : List Location := [query, header, path, request, body]

def ofName? (name : String) : Option Location := all.find? fun l => l.name = name

def ofJson? : Json → Option Location
  | .string name => ofName? name
  | .object [(name, .null)] => ofName? name
  | _ => none

end Location

/-- A parameter of a handler. Its name is also the root of failure paths. The schema says nothing
about bodies and requests. -/
structure Parameter where
  name : String
  location : Location
  schema : Schema := .any
  isRequired : Bool := false

abbrev Discriminator := Request → Except Fault String

/-- The content types of a request body, and what chooses among variants. -/
structure BodyRule where
  content : Content := []
  discriminator? : Option Discriminator := none

/-- The parameters of a handler in positional order, and the rule for bodies. -/
structure Route where
  parameters : List Parameter
  body? : Option BodyRule := none

inductive Argument where
  | request (r : Request)
  | value (v : Value)
  /-- An optional parameter that was not supplied. -/
  | undefined

def missingParameter (name : String) : Fault :=
  .rejected (.single .client .missingParameter name { reason := .parameterRequired })

/-- A content type that is not registered is reported under a name. -/
def contentTypeNotAllowed (severity : Severity) (name contentType : String) : Fault :=
  .rejected (.single severity .contentTypeNotAllowed name
    { reason := .contentTypeNotAllowed, value := some (.string contentType) })

end ApiContract

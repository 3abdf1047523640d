import ApiContract.Text.Percent
import ApiContract.Value.Basic

/-!
Raw requests: what the transport took from a request, before any check.

Query values add up under their name. Headers, path parameters, the body and the content type are
replaced when they are set again; the case of header names does not matter.
-/

namespace ApiContract

structure Request where
  queries : Entries (List String) := []
  /-- By names in lower case. -/
  headers : Entries String := []
  pathValues : Entries String := []
  body? : Option Value := none
  /-- The content type that was set apart from the headers. -/
  declaredType? : Option String := none

namespace Request

/-- A name in lower case; only ASCII letters have one. -/
def lowerCase (name : String) : String := String.ofList (name.toList.map Char.toLower)

def addQuery (r : Request) (name value : String) : Request :=
  { r with queries := r.queries.insert name ((r.queries.get? name).getD [] ++ [value]) }

def ofQueryString (query : String) : Request :=
  (Text.formPairs query).foldl (fun r e => r.addQuery e.1 e.2) {}

def setHeader (r : Request) (name value : String) : Request :=
  { r with headers := r.headers.insert (lowerCase name) value }

def setPathValue (r : Request) (name value : String) : Request :=
  { r with pathValues := r.pathValues.insert name value }

def setBody (r : Request) (body : Value) : Request := { r with body? := some body }

def setContentType (r : Request) (contentType : String) : Request :=
  { r with declaredType? := some contentType }

/-- A query value: a text if it was given once, and else an array of all texts. -/
def query? (r : Request) (name : String) : Option Value :=
  (r.queries.get? name).bind fun values =>
    match values with
    | [] => none
    | [single] => some (.string single)
    | many => some (.array (many.map .string))

def header? (r : Request) (name : String) : Option Value :=
  (r.headers.get? (lowerCase name)).map .string

def pathValue? (r : Request) (name : String) : Option Value :=
  (r.pathValues.get? name).map .string

/-- The content type that was set, or else the header that tells it. -/
def contentType? (r : Request) : Option String := r.declaredType? <|> r.headers.get? "content-type"

end Request

end ApiContract

import ApiContract.Json.Printer

/-!
What can be wrong with schemas, documents and route descriptions, whatever the request.
-/

namespace ApiContract

inductive SchemaFault where
  | malformed (raw : Json)
  | invalidPattern (source : String)
  | documentNotObject
  | sectionNotMapping
  | unloadable (name : String) (cause : SchemaFault)
  | unresolvable (target : String)
  | referenceCycle (target : String)
  | notConcrete (target : String)
  | noBodyDescriptor (parameter : String)
  | noResponse (status : Nat)
  | stated (text : String)

namespace SchemaFault

/-- How a fault is announced when it is shown on its own. -/
def announced (message : String) : String := "Schema Error: " ++ message

def message : SchemaFault → String
  | malformed raw => "Malformed schema " ++ raw.render
  | invalidPattern source => "Invalid pattern '" ++ source ++ "'"
  | documentNotObject => "OpenAPI document must be an object"
  | sectionNotMapping => "Schema section must be a mapping of name to schema"
  | unloadable name cause =>
    "Schema '" ++ name ++ "' could not be loaded: " ++ announced cause.message
  | unresolvable target => "Could not resolve reference '" ++ target ++ "'"
  | referenceCycle target => "Reference cycle detected at '" ++ target ++ "'"
  | notConcrete target => "Reference '" ++ target ++ "' did not resolve to a concrete schema"
  | noBodyDescriptor parameter =>
    "Body parameter '" ++ parameter ++ "' has no request body descriptor"
  | noResponse status => "Missing response schema for status code " ++ toString status
  | stated text => text

end SchemaFault

end ApiContract

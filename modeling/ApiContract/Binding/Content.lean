import ApiContract.Binding.Request
import ApiContract.Schema.Basic
import ApiContract.Text.Blank

/-!
Schemas by content type.

Registrations keep their spelling; a content type is looked up by its media type alone, without
regard to case, blanks around it and parameters, and the first registration that fits is taken.
-/

namespace ApiContract

def mediaType (contentType : String) : String :=
  let name := contentType.toList.takeWhile (· ≠ ';')
  Request.lowerCase (String.ofList (Text.trim name))

def defaultContentType : String := "application/json"

/-- Schemas by content type as registered. -/
abbrev Content := Entries Schema

namespace Content

def json (schema : Schema) : Content := [(defaultContentType, schema)]

/-- The schema for a content type. -/
def schemaFor? (content : Content) (contentType : String) : Option Schema :=
  (content.find? fun e => mediaType e.1 = mediaType contentType).map Prod.snd

end Content

end ApiContract

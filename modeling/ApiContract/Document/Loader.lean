import ApiContract.Document.Basic
import ApiContract.Fault
import ApiContract.Schema.Loader
import ApiContract.Yaml.Loader

/-!
Loading a document from an API description: the schemas under `components/schemas`, or else under
`definitions`, and the address under `$self`. References are checked once all schemas are known.
-/

namespace ApiContract.Document

def schemaSection? (raw : Json) : Option Json :=
  raw.follow? ["components", "schemas"] <|> raw.get? "definitions"

def loadSchemas (d : Document) : List (String × Json) → Except SchemaFault Document
  | [] => .ok d
  | (name, raw) :: rest =>
    match Schema.ofJson raw with
    | .error cause => .error (.unloadable name cause)
    | .ok schema => loadSchemas (d.insert name schema) rest

def ofJson (raw : Json) : Except SchemaFault Document := do
  match raw with
  | .object _ =>
    let start : Document :=
      { selfUri := (raw.get? "$self").bind Json.string?, distinct := Entries.distinct_nil }
    let d ← match schemaSection? raw with
      | none => pure start
      | some section_ =>
        match section_.object? with
        | none => throw .sectionNotMapping
        | some members => loadSchemas start members
    d.checkReferences
    return d
  | _ => throw .documentNotObject

def ofYaml (text : String) : Except Fault Document :=
  match Json.ofYaml? text with
  | none => .error .yaml
  | some raw => (ofJson raw).mapError .schema

end ApiContract.Document

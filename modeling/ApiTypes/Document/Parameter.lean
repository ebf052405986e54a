import ApiTypes.Document.Content
import ApiTypes.Pointer

/-! Parameters of operations. -/

namespace ApiTypes

/-- Where a parameter travels. -/
inductive ParameterLocation where
  | query
  | header
  | path
  | cookie
deriving DecidableEq

namespace ParameterLocation

/-- All locations under their names. -/
def named : List (String × ParameterLocation) :=
  [("query", query), ("header", header), ("path", path), ("cookie", cookie)]

/-- The name of a location in documents. -/
def name : ParameterLocation → String
  | query => "query"
  | header => "header"
  | path => "path"
  | cookie => "cookie"

end ParameterLocation

/-- A parameter, which has a schema or else content with a single media type. -/
structure Parameter where
  name : String
  location : ParameterLocation
  description : Option String := none
  required : Bool := false
  deprecated : Option Bool := none
  schema : Option Schema := none
  content : Content := {}

namespace Parameter

/-- The fields of a parameter. -/
def form : RecordForm where
  name := "Parameter"
  fields :=
    [("name", .required), ("in", .required), ("description", .optional), ("required", .defaulted),
      ("deprecated", .optional), ("schema", .optional), ("content", .defaulted)]

/-- Sets one field. -/
def set (stance : Stance) (name : String) (source : Source) (parameter : Parameter) :
    Reading Parameter := do
  match name with
  | "name" => return { parameter with name := ← source.readText stance }
  | "in" =>
    return { parameter with location := ← source.readChoice stance ParameterLocation.named }
  | "description" =>
    return { parameter with description := ← source.readOption stance (·.readText stance) }
  | "required" => return { parameter with required := ← source.readBool stance }
  | "deprecated" =>
    return { parameter with deprecated := ← source.readOption stance (·.readBool stance) }
  | "schema" => return { parameter with schema := ← source.readOption stance Schema.read }
  | _ => return { parameter with content := ← Content.read stance source }

/-- Reads a parameter in place. -/
def readInline (stance : Stance) (source : Source) : Reading Parameter :=
  form.read stance { name := "", location := .query } (set stance) source

/-- Reads a parameter or a reference to one. -/
def read (source : Source) : Reading (Referable Parameter) :=
  Referable.read "ParameterOrRef" (readInline .whole) source

/-- Writes a parameter, and whether it is required in any case. -/
def toData (parameter : Parameter) : Data :=
  .record <|
    Data.field "name" (.text parameter.name)
      ++ Data.field "in" (.text parameter.location.name)
      ++ Data.optional "description" .text parameter.description
      ++ Data.field "required" (.bool parameter.required)
      ++ Data.optional "deprecated" .bool parameter.deprecated
      ++ Data.optional "schema" Schema.toData parameter.schema
      ++ (if parameter.content.isEmpty then [] else Data.field "content" parameter.content.toData)

/-- The schema that types a parameter, with its pointer relative to the parameter. -/
def typedSchema? (parameter : Parameter) : Option (String × Schema) :=
  match parameter.schema with
  | some schema => some ("schema", schema)
  | none => do
    let (mediaName, media) ← parameter.content.preferred?
    let schema ← media.schema
    return ("content/" ++ Pointer.escape mediaName ++ "/schema", schema)

end Parameter

end ApiTypes

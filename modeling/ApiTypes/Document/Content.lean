import ApiTypes.Document.SchemaReading
import ApiTypes.Document.SchemaWriting

/-! Parts that a document may share by reference, and the bodies of requests and responses. -/

namespace ApiTypes

/-- A part that is written in place, or a pointer to one among the components. -/
inductive Referable (α : Type) where
  | reference (path : String)
  | inline (value : α)

namespace Referable

variable {α : Type}

/-- Reads a reference or else the part itself. -/
def read (name : String) (readPart : Source → Reading α) (source : Source) :
    Reading (Referable α) :=
  source.tryAll name
    [(readReference name source).map .reference, (readPart source).map .inline]

/-- Writes a reference or the part itself. -/
def toData (writePart : α → Data) : Referable α → Data
  | .reference path => Schema.referenceData path
  | .inline value => writePart value

end Referable

/-- The description of one media type, of which only the schema matters. -/
structure MediaType where
  schema : Option Schema := none

namespace MediaType

/-- The fields of a media type. -/
def form : RecordForm := ⟨"MediaType", [("schema", .optional)]⟩

/-- Reads a media type. -/
def read (stance : Stance) (source : Source) : Reading MediaType :=
  form.read stance {} (fun _ part _ => return ⟨← part.readOption stance Schema.read⟩) source

/-- Writes a media type. -/
def toData (media : MediaType) : Data := .record (Data.optional "schema" Schema.toData media.schema)

end MediaType

/-- Bodies by the names of their media types. -/
abbrev Content := Table MediaType

namespace Content

/-- Reads bodies by the names of their media types. -/
def read (stance : Stance) (source : Source) : Reading Content :=
  source.readTable stance (MediaType.read stance)

/-- Writes bodies by the names of their media types. -/
def toData (content : Content) : Data := Data.ofTable MediaType.toData content

/-- Whether the name of a media type ends in `+json`. -/
def isJsonSuffixed (name : String) : Bool := "+json".toList.isSuffixOf name.toList

/-- The body to be typed: JSON itself, else the first type based on JSON, else the first one. -/
def preferred? (content : Content) : Option (String × MediaType) :=
  (content.entries.find? fun entry => entry.1 == "application/json").or
    ((content.entries.find? fun entry => isJsonSuffixed entry.1).or content.entries.head?)

end Content

/-- The body of a request. -/
structure RequestBody where
  description : Option String := none
  content : Content := {}
  required : Bool := false

namespace RequestBody

/-- The fields of a request body. -/
def form : RecordForm where
  name := "RequestBody"
  fields := [("description", .optional), ("content", .defaulted), ("required", .defaulted)]

/-- Sets one field. -/
def set (name : String) (source : Source) (body : RequestBody) : Reading RequestBody := do
  match name with
  | "description" =>
    return { body with description := ← source.readOption .whole (·.readText .whole) }
  | "content" => return { body with content := ← Content.read .whole source }
  | _ => return { body with required := ← source.readBool .whole }

/-- Reads a request body or a reference to one. -/
def read (source : Source) : Reading (Referable RequestBody) :=
  Referable.read "RequestBodyOrRef" (form.read .whole {} set) source

/-- Writes a request body, its content and whether it is required in any case. -/
def toData (body : RequestBody) : Data :=
  .record <|
    Data.optional "description" .text body.description
      ++ Data.field "content" body.content.toData
      ++ Data.field "required" (.bool body.required)

end RequestBody

/-- A response. -/
structure Response where
  description : String := ""
  content : Content := {}

namespace Response

/-- The fields of a response. -/
def form : RecordForm := ⟨"Response", [("description", .defaulted), ("content", .defaulted)]⟩

/-- Sets one field. -/
def set (name : String) (source : Source) (response : Response) : Reading Response := do
  match name with
  | "description" => return { response with description := ← source.readText .whole }
  | _ => return { response with content := ← Content.read .whole source }

/-- Reads a response or a reference to one. -/
def read (source : Source) : Reading (Referable Response) :=
  Referable.read "ResponseOrRef" (form.read .whole {} set) source

/-- Writes a response, its description in any case. -/
def toData (response : Response) : Data :=
  .record <|
    Data.field "description" (.text response.description)
      ++ (if response.content.isEmpty then [] else Data.field "content" response.content.toData)

/-- Whether a status stands for success. -/
def isSuccess (status : String) : Bool := status.toList.head? == some '2'

end Response

end ApiTypes

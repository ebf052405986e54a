import ApiTypes.Document.PathItem
import ApiTypes.Source.JsonText
import ApiTypes.Source.Yaml.Tree

/-! Whole documents: what they hold, their version, and reading them from text. -/

namespace ApiTypes

/-- The definitions that the rest of a document may refer to. -/
structure Components where
  schemas : Table Schema := {}
  responses : Table (Referable Response) := {}
  parameters : Table (Referable Parameter) := {}
  requestBodies : Table (Referable RequestBody) := {}

namespace Components

/-- The sections of the components. -/
def form : RecordForm where
  name := "Components"
  fields :=
    [("schemas", .defaulted), ("responses", .defaulted), ("parameters", .defaulted),
      ("requestBodies", .defaulted)]

/-- Sets one section. -/
def set (stance : Stance) (name : String) (source : Source) (components : Components) :
    Reading Components := do
  match name with
  | "schemas" => return { components with schemas := ← source.readTable stance Schema.read }
  | "responses" => return { components with responses := ← source.readTable stance Response.read }
  | "parameters" =>
    return { components with parameters := ← source.readTable stance Parameter.read }
  | _ => return { components with requestBodies := ← source.readTable stance RequestBody.read }

/-- Reads components. -/
def read (stance : Stance) (source : Source) : Reading Components :=
  form.read stance {} (set stance) source

/-- Writes components, without empty sections. -/
def toData (components : Components) : Data :=
  let sectionData {α : Type} (name : String) (write : α → Data) (table : Table α) :=
    if table.isEmpty then [] else Data.field name (Data.ofTable write table)
  .record <|
    sectionData "schemas" Schema.toData components.schemas
      ++ sectionData "responses" (Referable.toData Response.toData) components.responses
      ++ sectionData "parameters" (Referable.toData Parameter.toData) components.parameters
      ++ sectionData "requestBodies" (Referable.toData RequestBody.toData)
        components.requestBodies

end Components

/-- What a document says about itself. -/
structure Info where
  title : String
  description : Option String := none
  version : String

namespace Info

/-- The fields of the information about a document. -/
def form : RecordForm where
  name := "Info"
  fields := [("title", .required), ("description", .optional), ("version", .required)]

/-- Sets one field. -/
def set (stance : Stance) (name : String) (source : Source) (info : Info) : Reading Info := do
  match name with
  | "title" => return { info with title := ← source.readText stance }
  | "description" =>
    return { info with description := ← source.readOption stance (·.readText stance) }
  | _ => return { info with version := ← source.readText stance }

/-- The information before any field is set. -/
def unset : Info := { title := "", version := "" }

/-- Reads the information about a document. -/
def read (stance : Stance) (source : Source) : Reading Info :=
  form.read stance unset (set stance) source

/-- Writes the information about a document. -/
def toData (info : Info) : Data :=
  .record <|
    Data.field "title" (.text info.title)
      ++ Data.optional "description" .text info.description
      ++ Data.field "version" (.text info.version)

end Info

/-- The meaning that the keywords for null and for exclusive bounds have in a document. -/
inductive SpecVersion where
  /-- Null is the keyword `nullable`, and exclusive bounds are flags beside the bounds. -/
  | v30
  /-- Null is a type, and exclusive bounds are bounds of their own. -/
  | v31
deriving DecidableEq

namespace SpecVersion

/-- Whether a text begins with another one. -/
def startsWith (text beginning : String) : Bool := beginning.toList.isPrefixOf text.toList

/-- The version that the text of a document's version stands for. -/
def ofText (version : String) : SpecVersion := if startsWith version "3.0" then .v30 else .v31

/-- The name of a version in results. -/
def name : SpecVersion → String
  | v30 => "V3_0"
  | v31 => "V3_1"

end SpecVersion

/-- A document. -/
structure Document where
  openapi : String
  info : Info
  paths : Table PathItem := {}
  components : Option Components := none

/-- Why a text is no document. -/
inductive DocumentError where
  | reading (error : ReadError)
  | unsupportedVersion (version : String)

namespace Document

/-- The fields of a document. -/
def form : RecordForm where
  name := "OpenApiSpec"
  fields :=
    [("openapi", .required), ("info", .required), ("paths", .defaulted), ("components", .optional)]

/-- Sets one field. -/
def set (stance : Stance) (name : String) (source : Source) (document : Document) :
    Reading Document := do
  match name with
  | "openapi" => return { document with openapi := ← source.readText stance }
  | "info" => return { document with info := ← Info.read stance source }
  | "paths" => return { document with paths := ← source.readTable stance (PathItem.read stance) }
  | _ => return { document with components := ← source.readOption stance (Components.read stance) }

/-- Reads a document from the tree of a text. -/
def read (stance : Stance) (source : Source) : Reading Document :=
  form.read stance { openapi := "", info := Info.unset } (set stance) source

/-- The version of a document. -/
def version (document : Document) : SpecVersion := SpecVersion.ofText document.openapi

/-- The schemas among the components. -/
def schemas (document : Document) : Table Schema := (document.components.getD {}).schemas

/-- Writes a document. -/
def toData (document : Document) : Data :=
  .record <|
    Data.field "openapi" (.text document.openapi)
      ++ Data.field "info" document.info.toData
      ++ (if document.paths.isEmpty then []
        else Data.field "paths" (Data.ofTable PathItem.toData document.paths))
      ++ Data.optional "components" Components.toData document.components

/-- Accepts a document of a supported version. -/
def checkVersion (document : Document) : Except DocumentError Document :=
  if SpecVersion.startsWith document.openapi "3." then .ok document
  else .error (.unsupportedVersion document.openapi)

end Document

/-- Reads a document from JSON text. -/
def Document.ofJson (text : String) : Except DocumentError Document := do
  let document ← ((JsonText.read text).readAs (Document.read .json)).mapError .reading
  document.checkVersion

/-- Reads a document from YAML text. -/
def Document.ofYaml (text : String) : Except DocumentError Document := do
  let document ← ((YamlText.read text).readAs (Document.read .yaml)).mapError .reading
  document.checkVersion

end ApiTypes

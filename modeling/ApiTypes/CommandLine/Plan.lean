import ApiTypes.CommandLine.Arguments
import ApiTypes.Config
import ApiTypes.Data.Json
import ApiTypes.Data.Yaml
import ApiTypes.Summary

/-! What a command does: the file it writes, what it prints, and the error that it ends with. -/

namespace ApiTypes.CommandLine

/-- Why a command fails. -/
inductive CommandError where
  | unreadableConfig (path reason : String)
  | invalidConfig (path : String)
  | unreadable (path : String)
  | invalid (path : String)
  | unwritable (path : String)
  /-- The settings file cannot be written, for a reason that the system gives. -/
  | system (reason : String)
  | alreadyExists (path : String)
  | notSynthesized (count : Nat)

namespace CommandError

/-- The message of an error. -/
def message : CommandError → String
  | unreadableConfig path reason => "failed to read config " ++ path ++ ": " ++ reason
  | invalidConfig path => "failed to parse config " ++ path
  | unreadable path => "failed to read " ++ path
  | invalid path => "failed to parse " ++ path
  | unwritable path => "failed to write " ++ path
  | system reason => reason
  | alreadyExists path => path ++ " already exists. Use --force to overwrite."
  | notSynthesized count =>
    toString count ++ " schema(s) or operation(s) could not be synthesized"

/-- Whether an error has a cause outside of the command, which is reported apart from it. -/
def hasCause : CommandError → Bool
  | unreadableConfig _ _ | invalidConfig _ | unreadable _ | invalid _ | unwritable _ => true
  | system _ | alreadyExists _ | notSynthesized _ => false

end CommandError

/-- What a command prints, and how it ends. -/
structure Report where
  /-- What is printed as the result. -/
  output : String := ""
  /-- Lines about the work. -/
  notes : List String := []
  error : Option CommandError := none

/-- A file to be written, and what is reported if that fails. -/
structure Writing where
  path : String
  content : String
  failure : String → CommandError

/-- What a command does after it has looked at its files. -/
structure Plan where
  writing : Option Writing := none
  /-- What is reported before anything is written. -/
  before : Report := {}
  /-- What is reported once all is done. -/
  after : Report := {}

/-- A plan that does nothing but fail. -/
def Plan.failing (error : CommandError) : Plan := { before := { error := some error } }

/-- Loads the settings for a command. Without a settings file they have their defaults. -/
def loadConfig (look : String → FileContent) (path : Option String) : Except CommandError Config :=
  let path := path.getD Config.fileName
  match Config.load (look path) with
  | .ok config => .ok (config.getD {})
  | .error (.unreadable reason) => .error (.unreadableConfig path reason)
  | .error (.invalid _) => .error (.invalidConfig path)

/-- Whether the name of the file at a path ends as those of JSON files do. -/
def isJsonPath (path : String) : Bool :=
  let name := ((path.splitOn "/").getLast?.getD "").toList
  -- The end of a name begins at its last point, unless the name begins there itself.
  name.reverse.takeWhile (· != '.') == "json".toList.reverse && 5 < name.length

/-- Reads the document at a path. -/
def readDocument (look : String → FileContent) (path : String) : Except CommandError Document :=
  match look path with
  | .text content =>
    let read := if isJsonPath path then Document.ofJson else Document.ofYaml
    (read content).mapError fun _ => .invalid path
  | .absent | .unreadable _ => .error (.unreadable path)

/-- Data in a format, as a text of its own. -/
def render (format : Format) (data : Data) : String :=
  match format with
  | .yaml => Yaml.text data
  | .json => Json.pretty 0 data ++ "\n"

/-- What is said about the output of a document. -/
def noteLines (path : String) (output : Output) : List String :=
  (output.diagnostics.map fun diagnostic => path ++ ": " ++ diagnostic.line)
    ++ [path ++ ": " ++ toString output.declarations.length ++ " declarations, "
      ++ toString output.operations.length ++ " operations, "
      ++ toString (output.count .error) ++ " errors"]

/-- One output by itself, or several ones by their paths. -/
def outputsData (outputs : List (String × Output)) : Data :=
  match outputs with
  | [(_, single)] => single.toData
  | several => Data.ofTable Output.toData (Table.ofEntries several)

/-- Derives the types of documents. -/
def planSynthesis (look : String → FileContent) (config : Config) (inputs : List String)
    (output : Option String) (format : Format) : Except CommandError Plan := do
  let documents ← inputs.mapM (readDocument look)
  let outputs := inputs.zip (documents.map fun document => document.synthesize config)
  let notes := outputs.flatMap fun (path, output) => noteLines path output
  let content := render format (outputsData outputs)
  match output with
  | none => return { before := { output := content, notes } }
  | some path =>
    return { writing := some { path, content, failure := fun _ => .unwritable path }
             before := { notes }
             after := { notes := ["wrote " ++ path] } }

/-- Checks that all types of a document can be derived. -/
def planValidation (look : String → FileContent) (config : Config) (input : String) :
    Except CommandError Plan := do
  let document ← readDocument look input
  let output := document.synthesize config
  let about :=
    ["Valid OpenAPI " ++ document.openapi ++ " document: " ++ document.info.title,
      "  Version: " ++ document.info.version,
      "  Paths: " ++ toString document.paths.size]
    ++ (document.components.map fun components =>
      "  Schemas: " ++ toString components.schemas.size).toList
    ++ noteLines input output
  let failed := output.count .error
  if output.hasErrors then
    return { before := { notes := about, error := some (.notSynthesized failed) } }
  else return { before := { notes := about ++ ["Validation successful."] } }

/-- Prints a summary of the types of a document. -/
def planInspection (look : String → FileContent) (config : Config) (input : String)
    (format : Format) : Except CommandError Plan := do
  let document ← readDocument look input
  return { before := { output := render format (document.synthesize config).summary } }

/-- Writes a settings file. -/
def planInit (look : String → FileContent) (force : Bool) : Plan :=
  match look Config.fileName, force with
  | .text _, false | .unreadable _, false => Plan.failing (.alreadyExists Config.fileName)
  | _, _ =>
    { writing := some
        { path := Config.fileName, content := Config.defaultText, failure := CommandError.system }
      after := { notes := ["Created " ++ Config.fileName] } }

/-- What a command does, given what it finds at every path. The settings are loaded first. -/
def Command.plan (look : String → FileContent) (config : Option String) (command : Command) :
    Plan :=
  let planned : Except CommandError Plan := do
    match command with
    | .init force => return planInit look force
    | .synthesize inputs output format =>
      planSynthesis look (← loadConfig look config) inputs output format
    | .validate input => planValidation look (← loadConfig look config) input
    | .inspect input format => planInspection look (← loadConfig look config) input format
  match planned with
  | .ok plan => plan
  | .error error => Plan.failing error

end ApiTypes.CommandLine

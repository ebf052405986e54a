import ApiTypes.File
import ApiTypes.Reading.RecordForm
import ApiTypes.Source.Yaml.Tree

/-! Settings for deriving types. -/

namespace ApiTypes

/-- How the names of operations are found. -/
inductive NamingStrategy where
  /-- The operation's own identifier, or else its route. -/
  | operationId
  /-- The method and the path. -/
  | route
deriving DecidableEq

namespace NamingStrategy

/-- The strategies under their names. -/
def named : List (String × NamingStrategy) :=
  [("use_operation_id", operationId), ("use_route_based", route)]

/-- The name of a strategy. -/
def name : NamingStrategy → String
  | operationId => "use_operation_id"
  | route => "use_route_based"

end NamingStrategy

/-- How operations are named. -/
structure NamingConfig where
  strategy : NamingStrategy := .operationId
  /-- Other names for operations, by the names that the strategy gives. -/
  aliases : Table String := {}

namespace NamingConfig

/-- The fields of the naming settings. -/
def form : RecordForm where
  name := "NamingConfig"
  fields := [("strategy", .defaulted), ("aliases", .defaulted)]

/-- Sets one field. -/
def set (stance : Stance) (name : String) (source : Source) (naming : NamingConfig) :
    Reading NamingConfig := do
  match name with
  | "strategy" =>
    return { naming with strategy := ← source.readChoice stance NamingStrategy.named }
  | _ => return { naming with aliases := ← source.readTable stance (·.readText stance) }

/-- Reads the naming settings. -/
def read (stance : Stance) (source : Source) : Reading NamingConfig :=
  form.read stance {} (set stance) source

end NamingConfig

/-- Settings. -/
structure Config where
  /-- How deep arrays may be nested directly in each other. -/
  maxArrayDepth : Nat := 8
  /-- The greatest number of items that an array may declare as its maximum; any if absent. -/
  maxItems : Option Nat := none
  /-- What the names of arrays that need one end in. -/
  arraySuffix : String := "Arr"
  /-- Further names that no type may have. -/
  reservedWords : List String := []
  /-- Whether types are derived for operations as well. -/
  includeOperations : Bool := true
  naming : NamingConfig := {}

namespace Config

/-- The fields of the settings. -/
def form : RecordForm where
  name := "SynthConfig"
  fields :=
    [("max_array_depth", .defaulted), ("max_items", .defaulted), ("array_suffix", .defaulted),
      ("reserved_words", .defaulted), ("include_operations", .defaulted), ("naming", .defaulted)]

/-- Sets one field. -/
def set (stance : Stance) (name : String) (source : Source) (config : Config) :
    Reading Config := do
  match name with
  | "max_array_depth" => return { config with maxArrayDepth := ← source.readNat stance "usize" }
  | "max_items" =>
    return { config with maxItems := ← source.readOption stance (·.readNat stance "u64") }
  | "array_suffix" => return { config with arraySuffix := ← source.readText stance }
  | "reserved_words" =>
    return { config with reservedWords := ← source.readList stance (·.readText stance) }
  | "include_operations" => return { config with includeOperations := ← source.readBool stance }
  | _ => return { config with naming := ← NamingConfig.read stance source }

/-- Reads settings; whatever is missing has its default. -/
def read (stance : Stance) (source : Source) : Reading Config :=
  form.read stance {} (set stance) source

/-- Why the settings in a file cannot be used. -/
inductive LoadError where
  | unreadable (reason : String)
  | invalid (error : ReadError)

/-- Reads settings from YAML text. -/
def ofYaml (text : String) : Reading Config := (YamlText.read text).readAs (read .yaml)

/-- The settings of a file, if there is one. -/
def load : FileContent → Except LoadError (Option Config)
  | .absent => .ok none
  | .unreadable reason => .error (.unreadable reason)
  | .text content => ((ofYaml content).mapError .invalid).map some

/-- The name of the file in which settings are looked for. -/
def fileName : String := ".typesynth.yaml"

/-- The text of a new settings file. -/
def defaultText : String :=
  "\n".intercalate
    ["# typesynth configuration",
      "max_array_depth: 8        # deepest T[][]... allowed before a schema fails",
      "# max_items: 10000        # reject arrays declaring a larger maxItems",
      "array_suffix: Arr         # PetArr for arrays promoted to named types",
      "reserved_words: []        # extra names generated types must avoid",
      "include_operations: true  # also synthesize parameter/body/response types",
      "",
      "naming:",
      "  strategy: use_operation_id  # use_operation_id | use_route_based",
      "  aliases: \x7b\x7d",
      "    # createChatCompletion: chat     # operationId → custom name",
      ""]

end Config

end ApiTypes

import ApiTypes.CommandLine.Plan

/-! The command line: what is done and printed for given arguments. -/

namespace ApiTypes.CommandLine

/-- The name of the program with its version. -/
def versionText : String := "typesynth 0.3.0"

/-- How the program is used. -/
def helpText : String :=
  "\n".intercalate
    ["Synthesize type declarations from OpenAPI 3.x schemas",
      "",
      "Usage: typesynth [OPTIONS] <COMMAND>",
      "",
      "Commands:",
      "  synthesize -i <INPUT>... [-o <OUTPUT>] [--format <FORMAT>]",
      "             Synthesize declarations and print them",
      "  validate -i <INPUT>",
      "             Check that every schema of a document synthesizes",
      "  inspect -i <INPUT> [--format <FORMAT>]",
      "             Print a short summary of the synthesized declarations",
      "  init [--force]",
      "             Write a default configuration file",
      "",
      "Options:",
      "  -c, --config <CONFIG>  Config file (defaults to .typesynth.yaml)",
      "      --format <FORMAT>  Output format: yaml (default) or json",
      "  -h, --help             Print help",
      "  -V, --version          Print version"]

/-- How a run of the program ends. -/
inductive Ending where
  | success
  | failure (error : CommandError)
  /-- The arguments are not in order. -/
  | misuse

/-- The status that a run leaves behind. -/
def Ending.code : Ending → Nat
  | success => 0
  | failure _ => 1
  | misuse => 2

/-- What a run prints, and how it ends. -/
structure Outcome where
  output : String := ""
  notes : List String := []
  ending : Ending := .success

/-- The outcome of a report after another one, which only counts if that has no error. -/
def Report.outcome (before after : Report) : Outcome :=
  match before.error with
  | some error => ⟨before.output, before.notes, .failure error⟩
  | none =>
    let ending := match after.error with
      | some error => .failure error
      | none => .success
    ⟨before.output ++ after.output, before.notes ++ after.notes, ending⟩

/-- The outcome of a plan whose file has been written, if there was one to write. -/
def Plan.done (plan : Plan) : Outcome := plan.before.outcome plan.after

/-- The outcome of a plan whose file could not be written. -/
def Plan.stopped (plan : Plan) (writing : Writing) (reason : String) : Outcome :=
  plan.before.outcome { error := some (writing.failure reason) }

/-- Carries out a plan in a folder. -/
def Plan.carryOut (plan : Plan) (folder : Folder) : Outcome × Folder :=
  match plan.writing with
  | none => (plan.done, folder)
  | some writing =>
    match folder.write writing.path writing.content with
    | .ok written => (plan.done, written)
    | .error reason => (plan.stopped writing reason, folder)

/-- What the arguments ask for if no file is needed for it. -/
def answer (request : Request) : Outcome :=
  match request with
  | .version => { output := versionText ++ "\n" }
  | .help => { output := helpText ++ "\n" }
  | .run _ _ => {}

/-- Runs the program in a folder. -/
def runIn (folder : Folder) (arguments : List String) : Outcome × Folder :=
  match Request.read? arguments with
  | none => ({ ending := .misuse }, folder)
  | some (.run config command) => (command.plan folder.look config).carryOut folder
  | some request => (answer request, folder)

/-- The paths that a command looks at. -/
def Command.paths (config : Option String) : Command → List String
  | .synthesize inputs _ _ => config.getD Config.fileName :: inputs
  | .validate input | .inspect input _ => [config.getD Config.fileName, input]
  | .init _ => [Config.fileName]

end ApiTypes.CommandLine

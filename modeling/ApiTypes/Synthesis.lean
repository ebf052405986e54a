import ApiTypes.Synthesis.Operations
import ApiTypes.Synthesis.Withdrawal

/-! Deriving the types of a document. -/

namespace ApiTypes

/-- All that is derived from a document. -/
structure Output where
  version : SpecVersion
  declarations : List Declaration
  /-- The type names of the component schemas that have a declaration. -/
  names : Table String
  operations : List OperationBinding
  diagnostics : List Diagnostic

namespace Output

/-- The declaration of a name. -/
def declaration? (output : Output) (name : String) : Option Declaration :=
  output.declarations.find? fun declaration => declaration.name == name

/-- Whether something was left out. -/
def hasErrors (output : Output) : Bool := output.diagnostics.any Diagnostic.isError

/-- Writes the output. -/
def toData (output : Output) : Data :=
  .record
    [("version", .text output.version.name),
      ("declarations", .list (output.declarations.map Declaration.toData)),
      ("names", Data.ofTable .text output.names),
      ("operations", .list (output.operations.map OperationBinding.toData)),
      ("diagnostics", .list (output.diagnostics.map Diagnostic.toData))]

end Output

/-- The output of a finished workspace: what cannot stand or is not used is left out first. -/
def Workspace.finish (workspace : Workspace) (version : SpecVersion)
    (operations : List OperationBinding) (loweringDiagnostics : List Diagnostic) : Output :=
  let (operations, workspace) := workspace.withdrawDangling.keepOperations operations
  let workspace := workspace.dropUnreachable operations
  { version
    declarations := workspace.registry.declarations
    names := workspace.registry.names
    operations
    diagnostics := loweringDiagnostics ++ workspace.diagnostics }

namespace Document

/-- Synthesizes all component schemas, and the operations if they are wanted. -/
def bindAll (document : Document) (context : Context) :
    StateM Workspace (List OperationBinding) := do
  Synthesis.enterAll context
  if context.config.includeOperations then
    Synthesis.bindPaths context (document.components.getD {}) document.paths.entries
  else return []

/-- Derives the types of a document. What fails is reported and left out. -/
def synthesize (document : Document) (config : Config) : Output :=
  let (model, diagnostics) := (SchemaModel.ofDocument document).collect
  let context : Context := ⟨model, config⟩
  let (operations, workspace) := (document.bindAll context).run (Workspace.ofContext context)
  workspace.finish model.version operations diagnostics

end Document

end ApiTypes

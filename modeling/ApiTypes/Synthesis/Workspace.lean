import ApiTypes.Composition
import ApiTypes.Registry.Equivalence
import ApiTypes.Resolver

/-! What synthesis works on: the registry, the states of the schemas, and the diagnostics so far. -/

namespace ApiTypes

/-- What synthesis starts from and never changes. -/
structure Context where
  model : SchemaModel
  config : Config

/-- What synthesis changes. -/
structure Workspace where
  resolver : Resolver
  registry : Registry
  diagnostics : List Diagnostic := []

/-- A step of synthesis. It may fail, and keeps what it did to the workspace even then. -/
abbrev Synthesis := ExceptT LocatedFailure (StateM Workspace)

/-- The name and the place of the schema that is being walked. -/
structure Scope where
  /-- The candidate for the names of types that are declared here. -/
  name : String
  path : String

namespace Scope

/-- The scope of a part that has a name of its own. -/
def child (scope : Scope) (name path : String) : Scope := ⟨scope.name ++ name, scope.path ++ path⟩

/-- The scope of a part that shares the name. -/
def below (scope : Scope) (path : String) : Scope := { scope with path := scope.path ++ path }

end Scope

namespace Workspace

/-- The workspace in which every component schema has a name and nothing is declared. -/
def ofContext (context : Context) : Workspace :=
  context.model.names.foldl
    (fun workspace name =>
      let (emitted, registry) := workspace.registry.reserve name
      { workspace with registry, resolver := workspace.resolver.bindName name emitted })
    { resolver := {}, registry := Registry.ofConfig context.config }

/-- The workspace with one more diagnostic. -/
def report (workspace : Workspace) (path : String) (cause : Cause) : Workspace :=
  { workspace with diagnostics := workspace.diagnostics ++ [⟨path, cause⟩] }

/-- The workspace with the diagnostic of a failure. -/
def reportFailure (workspace : Workspace) (located : LocatedFailure) : Workspace :=
  workspace.report located.path (.failed located.failure)

end Workspace

namespace Synthesis

/-- Fails at a place. -/
def fail {α : Type} (path : String) (failure : Failure) : Synthesis α := throw ⟨path, failure⟩

/-- Fails at a place because members do not combine. -/
def failComposition {α : Type} (path : String) (error : CompositionError) : Synthesis α :=
  fail path (.composition error)

/-- Reports on a place. -/
def report (path : String) (cause : Cause) : Synthesis Unit :=
  modify fun workspace => workspace.report path cause

/-- The name under which a shape is declared, declaring it if there is need. -/
def register (candidate : String) (shape : Shape) (doc : Option String) (deprecated : Bool)
    (origin : Origin) : Synthesis String := do
  let workspace ← get
  let (name, registry) := workspace.registry.register candidate shape doc deprecated origin
  set { workspace with registry }
  return name

/-- Takes the result of combining members, or fails at a place. -/
def liftComposition {α : Type} (path : String) (result : Except CompositionError α) :
    Synthesis α :=
  match result with
  | .ok value => return value
  | .error error => failComposition path error

end Synthesis

end ApiTypes

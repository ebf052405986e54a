import ApiTypes.Lowering

/-! How far the synthesis of each component schema has come, and the type names held for them. -/

namespace ApiTypes

/-- How far the synthesis of a component schema has come. -/
inductive EntryState where
  | pending
  | resolving
  | registered
  | failed
deriving DecidableEq

/-- The name of a state. -/
def EntryState.name : EntryState → String
  | pending => "pending"
  | resolving => "resolving"
  | registered => "registered"
  | failed => "failed"

/-- Why a component schema cannot be referred to. -/
inductive ResolveError where
  | undefinedReference (name : String)
  | dependencyFailed (name : String)
deriving DecidableEq

namespace ResolveError

/-- The message of an error. -/
def message : ResolveError → String
  | undefinedReference name => "undefined reference: " ++ name
  | dependencyFailed name => "referenced schema `" ++ name ++ "` failed to resolve"

/-- The failure of the schema that refers to the missing one. -/
def failure : ResolveError → Failure
  | undefinedReference name => .undefinedReference name
  | dependencyFailed name => .dependencyFailed name

end ResolveError

/-- What a reference to a component schema finds. -/
inductive Lookup where
  /-- The type name of a schema that is done or in progress. -/
  | ready (emitted : String)
  /-- The node of a schema that has not been started. -/
  | unvisited (node : SchemaNode)

/-- The states of component schemas, and the names of their types. -/
structure Resolver where
  /-- The type name of each schema. -/
  emitted : Table String := {}
  /-- The schema of each type name. -/
  schemas : Table String := {}
  states : Table EntryState := {}
  /-- The schemas in progress, the outermost one first. -/
  visiting : List String := []

namespace Resolver

/-- Binds a component schema to the name of its type. -/
def bindName (resolver : Resolver) (schema emitted : String) : Resolver :=
  { resolver with
    emitted := resolver.emitted.insert schema emitted
    schemas := resolver.schemas.insert emitted schema }

/-- The state of a component schema. -/
def state (resolver : Resolver) (name : String) : EntryState :=
  (resolver.states.get? name).getD .pending

/-- Whether a component schema is in progress. -/
def isVisiting (resolver : Resolver) (name : String) : Bool := resolver.state name = .resolving

/-- Looks a component schema up to refer to it. -/
def resolve (resolver : Resolver) (model : SchemaModel) (name : String) :
    Except ResolveError Lookup :=
  match model.node? name with
  | none => .error (.undefinedReference name)
  | some node =>
    match resolver.state name with
    | .pending => .ok (.unvisited node)
    | .resolving | .registered => .ok (.ready ((resolver.emitted.get? name).getD name))
    | .failed => .error (.dependencyFailed name)

/-- Puts a component schema in progress. -/
def start (resolver : Resolver) (name : String) : Resolver :=
  { resolver with
    states := resolver.states.insert name .resolving
    visiting := resolver.visiting ++ [name] }

/-- Removes the last occurrence of a name. -/
def eraseLast (name : String) (names : List String) : List String :=
  (names.reverse.erase name).reverse

/-- Ends the progress of a component schema. -/
def finish (resolver : Resolver) (name : String) (outcome : EntryState) : Resolver :=
  { resolver with
    states := resolver.states.insert name outcome
    visiting := eraseLast name resolver.visiting }

/-- Marks a component schema as failed after its declaration was withdrawn. -/
def markFailed (resolver : Resolver) (name : String) : Resolver :=
  { resolver with states := resolver.states.insert name .failed }

end Resolver

end ApiTypes

import ApiTypes.Synthesis.Walk

/-!
Synthesis of component schemas. A schema is entered at most once along any chain of references, and
expanded at most once along any chain of intersections, so that cyclic documents come to an end.
-/

namespace ApiTypes

namespace Synthesis

/-- The name of a component schema's type, for which its own name stands in. -/
def emittedName (workspace : Workspace) (name fallback : String) : String :=
  (workspace.resolver.emitted.get? name).getD fallback

/-- Rejects a shape that only names a schema in progress which only names another one itself. -/
def checkAlias (context : Context) (scope : Scope) (shape : Shape) : Synthesis Unit := do
  let resolver := (← get).resolver
  match shape with
  | .alias target =>
    if let some schema := target.name?.bind resolver.schemas.get? then
      if resolver.isVisiting schema
          && (context.model.node? schema).any SchemaNode.declaresAlias then
        fail scope.path (.circularAlias schema)
  | _ => return ()

/-- Declares a component schema by an action that gives its shape, and records how that ended. -/
def declareComponent (name : String) (node : SchemaNode) (shape : Scope → Synthesis Shape) :
    StateM Workspace Unit := do
  modify fun workspace => { workspace with resolver := workspace.resolver.start name }
  let workspace ← get
  let emitted := emittedName workspace name (workspace.registry.typeName name)
  let scope : Scope := ⟨emitted, Pointer.ofSchema name⟩
  match ← (shape scope).run with
  | .ok shape =>
    modify fun workspace =>
      { workspace with
        registry := workspace.registry.fill emitted name shape node.traits.description
          node.traits.deprecated
        resolver := workspace.resolver.finish name .registered }
  | .error located =>
    modify fun workspace =>
      { workspace.reportFailure located with resolver := workspace.resolver.finish name .failed }

variable (context : Context)

mutual

/--
Synthesizes a component schema unless that has been started. `active` holds the schemas in progress
and `expanding` those whose expansion is in progress.
-/
def enterWithin (active expanding : List String) (name : String) : StateM Workspace Unit := do
  match found : context.model.node? name with
  | none => return ()
  | some node =>
    if fresh : active.contains name then return ()
    else
      have := Search.remaining_cons_lt (context.model.mem_names found) (by simpa using fresh)
      if (← get).resolver.state name = .pending then
        let outside : Surroundings :=
          { context
            muted := !expanding.isEmpty
            enter := fun target => enterWithin (name :: active) expanding target
            expand := fun target path => expandWithin (name :: active) expanding target path }
        declareComponent name node fun scope => do
          let shape ← (outside.walk node).declare scope 0
          checkAlias context scope shape
          return shape
termination_by
  Search.remaining context.model.names active + Search.remaining context.model.names expanding

/-- What a component schema contributes to an intersection at a path. -/
def expandWithin (active expanding : List String) (name path : String) :
    Synthesis MemberShape := do
  if fresh : expanding.contains name then failComposition path (.cyclicIntersection name)
  else
    match found : context.model.node? name with
    | none => fail path (.undefinedReference name)
    | some node =>
      have := Search.remaining_cons_lt (context.model.mem_names found) (by simpa using fresh)
      if context.model.isUnion node then return .union
      else
        let outside : Surroundings :=
          { context
            muted := true
            enter := fun target => enterWithin active (name :: expanding) target
            expand := fun target path => expandWithin active (name :: expanding) target path }
        let emitted := emittedName (← get) name name
        (outside.walk node).expand ⟨emitted, Pointer.ofSchema name⟩
termination_by
  Search.remaining context.model.names active + Search.remaining context.model.names expanding

end

/-- Synthesizes a component schema unless that has been started. -/
def enter (name : String) : StateM Workspace Unit := enterWithin context [] [] name

/-- The surroundings of a node that belongs to no component schema. -/
def surroundings : Surroundings :=
  { context
    muted := false
    enter := enter context
    expand := expandWithin context [] [] }

/-- Synthesizes every component schema in order. -/
def enterAll : StateM Workspace Unit := context.model.names.forM (enter context)

end Synthesis

end ApiTypes

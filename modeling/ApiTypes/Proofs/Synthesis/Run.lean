import ApiTypes.Proofs.Synthesis.Inversion
import ApiTypes.Synthesis.Component

/-!
Runs of synthesis. Whatever is asked of a node, it registers shapes, reports on places and synthesizes
component schemas, each of which begins, runs, and then is concluded by its shape or its failure.
-/

namespace ApiTypes

/-- The declared type of which a shape is nothing but another name. -/
def Shape.synonym? : Shape → Option String
  | .alias target => target.name?
  | .record _ | .enum _ _ | .union _ => none

namespace Workspace

/-- The workspace in which the synthesis of a component schema begins. -/
def begin (workspace : Workspace) (name : String) : Workspace :=
  { workspace with resolver := workspace.resolver.start name }

/-- The name and place of a component schema whose synthesis begins. -/
def scopeOf (workspace : Workspace) (name : String) : Scope :=
  ⟨Synthesis.emittedName workspace name (workspace.registry.typeName name), Pointer.ofSchema name⟩

/-- The workspace in which the synthesis of a component schema has ended. -/
def conclude (workspace : Workspace) (name emitted : String) (node : SchemaNode) :
    Except LocatedFailure Shape → Workspace
  | .ok shape =>
    { workspace with
      registry := workspace.registry.fill emitted name shape node.traits.description
        node.traits.deprecated
      resolver := workspace.resolver.finish name .registered }
  | .error located =>
    { workspace.reportFailure located with resolver := workspace.resolver.finish name .failed }

end Workspace

namespace Synthesis

/-- The surroundings inside schemas in progress and schemas whose expansion is in progress. -/
def within (context : Context) (muted : Bool) (active expanding : List String) : Surroundings :=
  { context, muted
    enter := enterWithin context active expanding
    expand := expandWithin context active expanding }

/-- The shape of a component schema, unless that makes it an alias of itself. -/
def shapeWithin (outside : Surroundings) (node : SchemaNode) (scope : Scope) : Synthesis Shape := do
  let shape ← (outside.walk node).declare scope 0
  checkAlias outside.context scope shape
  return shape

/-- The schema in progress of which a shape is only another name while it may name that shape. -/
def circular? (context : Context) (workspace : Workspace) (shape : Shape) : Option String :=
  (shape.synonym?.bind workspace.resolver.schemas.get?).filter fun schema =>
    workspace.resolver.isVisiting schema &&
      (context.model.node? schema).any SchemaNode.declaresAlias

/-- Checking a shape changes nothing, and fails if it is found to be circular. -/
theorem ends_checkAlias_iff (context : Context) (scope : Scope) (shape : Shape)
    {first last : Workspace} (result : Except LocatedFailure Unit) :
    (checkAlias context scope shape).Ends first result last ↔
      last = first ∧ result = match circular? context first shape with
        | none => .ok ()
        | some schema => .error ⟨scope.path, .circularAlias schema⟩ := by
  have reads : (checkAlias context scope shape).outcome first =
      (match circular? context first shape with
        | none => .ok ()
        | some schema => .error ⟨scope.path, .circularAlias schema⟩, first) := by
    unfold checkAlias circular?
    cases shape with
    | «alias» target =>
      simp only [outcome_bind, Shape.synonym?]
      have got : (get : Synthesis Workspace).outcome first = (.ok first, first) := rfl
      simp only [got]
      cases isSchema : target.name?.bind first.resolver.schemas.get? with
      | none => rfl
      | some schema =>
        -- A name is circular if it is of a schema in progress that is another name itself.
        by_cases isCircular : (first.resolver.isVisiting schema &&
            (context.model.node? schema).any SchemaNode.declaresAlias) = true
        · simp only [Option.filter, isCircular]
          rfl
        · simp only [Option.filter, isCircular]
          rfl
    | record | enum | union => rfl
  rw [ends_iff_of_outcome reads, and_comm]

/-- A component schema has the shape that its walk declares, if that is not circular. -/
theorem ends_shapeWithin_ok_iff (outside : Surroundings) (node : SchemaNode) (scope : Scope)
    {first last : Workspace} (shape : Shape) :
    (shapeWithin outside node scope).Ends first (.ok shape) last ↔
      ((outside.walk node).declare scope 0).Ends first (.ok shape) last ∧
        circular? outside.context last shape = none := by
  simp only [shapeWithin, ends_bind_ok_iff, ends_checkAlias_iff, ends_pure_iff, Except.ok.injEq]
  constructor
  · rintro ⟨found, middle, declares, _, _, ⟨rfl, passed⟩, rfl, rfl⟩
    refine ⟨declares, ?_⟩
    split at passed
    · assumption
    · cases passed
  · rintro ⟨declares, notCircular⟩
    exact ⟨shape, last, declares, (), last, ⟨rfl, by simp [notCircular]⟩, rfl, rfl⟩

/-- Declaring a component schema runs its action between its beginning and its conclusion. -/
theorem run_declareComponent {name : String} {node : SchemaNode} {action : Scope → Synthesis Shape}
    {workspace inner : Workspace} {result : Except LocatedFailure Shape}
    (ends : (action (workspace.scopeOf name)).Ends (workspace.begin name) result inner) :
    (declareComponent name node action).run workspace =
      ((), inner.conclude name (workspace.scopeOf name).name node result) := by
  -- Either way the last step concludes, which only the cases of the result show.
  have joined : declareComponent name node action = (do
      modify fun workspace => workspace.begin name
      let begun ← get
      let emitted := emittedName begun name (begun.registry.typeName name)
      let result ← (action ⟨emitted, Pointer.ofSchema name⟩).run
      modify fun inner => inner.conclude name emitted node result) := by
    unfold declareComponent
    refine bind_congr fun _ => bind_congr fun begun => bind_congr fun result => ?_
    cases result <;> rfl
  have runs : (declareComponent name node action).run workspace =
      let ended := (action (workspace.scopeOf name)).outcome (workspace.begin name)
      ((), ended.2.conclude name (workspace.scopeOf name).name node ended.1) := by
    rw [joined]
    rfl
  rw [runs, ends]

/-- An action under a condition on the workspace runs, or nothing does. -/
theorem run_conditionally (condition : Workspace → Prop) [DecidablePred condition]
    (action : StateM Workspace Unit) (workspace : Workspace) :
    ((get >>= fun current => if condition current then action else pure ()).run workspace).2 =
      if condition workspace then (action.run workspace).2 else workspace := by
  have reads : (get >>= fun current => if condition current then action else pure ()).run workspace =
      (if condition workspace then action else pure ()).run workspace := rfl
  rw [reads]
  split <;> rfl

/-- Entering a component schema does nothing, or it synthesizes a pending one. -/
theorem enterWithin_cases (context : Context) (active expanding : List String) (name : String)
    (workspace : Workspace) :
    (((enterWithin context active expanding name).run workspace).2 = workspace ∧
      (context.model.node? name = none ∨ name ∈ active ∨
        workspace.resolver.state name ≠ .pending)) ∨
    ∃ node result inner, context.model.node? name = some node ∧ name ∉ active ∧
      workspace.resolver.state name = .pending ∧
      (shapeWithin (within context (!expanding.isEmpty) (name :: active) expanding) node
        (workspace.scopeOf name)).Ends (workspace.begin name) result inner ∧
      ((enterWithin context active expanding name).run workspace).2 =
        inner.conclude name (workspace.scopeOf name).name node result := by
  rw [enterWithin]
  split
  · rename_i undefined
    exact .inl ⟨rfl, .inl undefined⟩
  · rename_i node found
    split
    · rename_i isActive
      exact .inl ⟨rfl, .inr (.inl (by simpa using isActive))⟩
    · rename_i fresh
      -- The state that is read is the one of the workspace in which the schema is entered.
      have runs := run_conditionally (fun current => current.resolver.state name = .pending)
        (declareComponent name node
          (shapeWithin (within context (!expanding.isEmpty) (name :: active) expanding) node))
        workspace
      by_cases pending : workspace.resolver.state name = .pending
      · right
        obtain ⟨result, inner, ends⟩ := (shapeWithin
          (within context (!expanding.isEmpty) (name :: active) expanding) node
            (workspace.scopeOf name)).exists_ends (workspace.begin name)
        rw [if_pos pending, run_declareComponent ends] at runs
        exact ⟨node, result, inner, found, by simpa using fresh, pending, ends, runs⟩
      · rw [if_neg pending] at runs
        exact .inl ⟨runs, .inr (.inr pending)⟩

/-- Expanding a component schema fails, finds a choice, or expands the node of the schema. -/
theorem expandWithin_cases {context : Context} {active expanding : List String} {name path : String}
    {first last : Workspace} {result : Except LocatedFailure MemberShape}
    (ends : (expandWithin context active expanding name path).Ends first result last) :
    (name ∈ expanding ∧ result = .error ⟨path, .composition (.cyclicIntersection name)⟩ ∧
      last = first) ∨
    (context.model.node? name = none ∧ result = .error ⟨path, .undefinedReference name⟩ ∧
      last = first) ∨
    ∃ node, context.model.node? name = some node ∧ name ∉ expanding ∧
      ((context.model.isUnion node = true ∧ result = .ok .union ∧ last = first) ∨
        (context.model.isUnion node = false ∧
          (((within context true active (name :: expanding)).walk node).expand
            ⟨emittedName first name name, Pointer.ofSchema name⟩).Ends first result last)) := by
  rw [expandWithin] at ends
  split at ends
  · rename_i isExpanding
    exact .inl ⟨by simpa using isExpanding, by simpa using ends⟩
  · rename_i fresh
    split at ends
    · rename_i undefined
      exact .inr (.inl ⟨undefined, by simpa using ends⟩)
    · rename_i node found
      refine .inr (.inr ⟨node, found, by simpa using fresh, ?_⟩)
      split at ends
      · rename_i isUnion
        exact .inl ⟨isUnion, by simpa using ends⟩
      · rename_i notUnion
        exact .inr ⟨by simpa using notUnion, ends⟩

end Synthesis

/--
How a workspace may change while something is asked of nodes. What begins with a component schema is
itself such a change, up to the conclusion of that schema.
-/
inductive Runs (context : Context) : Workspace → Workspace → Prop
  | refl (workspace : Workspace) : Runs context workspace workspace
  /-- A shape inside a schema gets a name, unless it is only another name itself. -/
  | register {first middle : Workspace} (runs : Runs context first middle) (candidate : String)
    (shape : Shape) (doc : Option String) (deprecated : Bool) (path : String)
    (isPlain : shape.synonym? = none) :
    Runs context first { middle with
      registry := (middle.registry.register candidate shape doc deprecated (.inline path)).2 }
  /-- Something is reported for which nothing is left out. -/
  | report {first middle : Workspace} (runs : Runs context first middle) (path : String)
    (cause : Cause) (isHarmless : cause.severity ≠ .error) :
    Runs context first (middle.report path cause)
  /-- A component schema is synthesized, inside others that have been started before. -/
  | component {first middle inner : Workspace} (runs : Runs context first middle) {name : String}
    {node : SchemaNode} (found : context.model.node? name = some node)
    (pending : middle.resolver.state name = .pending) (muted : Bool)
    {active expanding : List String}
    (started : ∀ other ∈ active, middle.resolver.state other ≠ .pending)
    {result : Except LocatedFailure Shape}
    (ends : (Synthesis.shapeWithin (Synthesis.within context muted (name :: active) expanding) node
      (middle.scopeOf name)).Ends (middle.begin name) result inner)
    (inside : Runs context (middle.begin name) inner) :
    Runs context first (inner.conclude name (middle.scopeOf name).name node result)

/-- Changes follow each other. -/
theorem Runs.trans {context : Context} {first middle last : Workspace}
    (earlier : Runs context first middle) (later : Runs context middle last) :
    Runs context first last := by
  induction later with
  | refl => exact earlier
  | register _ candidate shape doc deprecated path isPlain ih =>
    exact .register (ih earlier) candidate shape doc deprecated path isPlain
  | report _ path cause isHarmless ih => exact .report (ih earlier) path cause isHarmless
  | component _ found pending muted started ends inside ih _ =>
    exact .component (ih earlier) found pending muted started ends inside

end ApiTypes

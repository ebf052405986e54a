import ApiTypes.Proofs.Synthesis.Accounting
import ApiTypes.Proofs.Synthesis.Adequacy

/-!
Records of synthesis. Names are made up in the same way at any time, and every component schema that is
registered has the shape that the walk of its node has declared.
-/

namespace ApiTypes

variable {context : Context} {first last : Workspace}

/-- Names are made up as the settings say, and held for component schemas alone. -/
structure Workspace.Spelled (context : Context) (workspace : Workspace) : Prop where
  reservedWords_eq : workspace.registry.reservedWords = context.config.reservedWords
  arraySuffix_eq : workspace.registry.arraySuffix = context.config.arraySuffix
  of_reserved : ∀ {name}, workspace.registry.slots.get? name = some .reserved →
    ∃ schema, context.emitted? schema = some name

namespace Workspace.Spelled

/-- Names are made up as the settings say from the beginning. -/
theorem ofContext (context : Context) : (Workspace.ofContext context).Spelled context := by
  have spelled : (Workspace.ofContext context).registry.reservedWords = context.config.reservedWords ∧
      (Workspace.ofContext context).registry.arraySuffix = context.config.arraySuffix := by
    refine holds_ofContext (fun workspace =>
      workspace.registry.reservedWords = context.config.reservedWords ∧
        workspace.registry.arraySuffix = context.config.arraySuffix) context ⟨rfl, rfl⟩
      fun workspace schema same => ?_
    unfold reserve Registry.reserve
    cases workspace.registry.components.get? schema <;> exact same
  refine ⟨spelled.1, spelled.2, fun {name} isReserved => ?_⟩
  -- In the beginning a name is taken for the component schema that has it.
  have reserves := Workspace.reserves_ofContext context
  rw [reserves.slots_eq] at isReserved
  obtain ⟨schema, isSchema, _⟩ := Option.map_eq_some_iff.mp isReserved
  exact ⟨schema, (reserves.inverse schema name).mp isSchema⟩

/-- Declaring something does not change how names are made up. -/
theorem declare (spelled : first.Spelled context) {declaration : Declaration}
    (isDeclared : last.registry = first.registry.declare declaration) : last.Spelled context := by
  refine ⟨?_, ?_, fun {name} isReserved => ?_⟩
  · rw [isDeclared]
    exact spelled.reservedWords_eq
  · rw [isDeclared]
    exact spelled.arraySuffix_eq
  · rw [isDeclared, Registry.declare, Table.get?_insert] at isReserved
    split at isReserved
    · cases isReserved
    · exact spelled.of_reserved isReserved

/-- Nor does anything else that leaves the registry as it is. -/
theorem same (spelled : first.Spelled context) (isSame : last.registry = first.registry) :
    last.Spelled context :=
  ⟨isSame ▸ spelled.reservedWords_eq, isSame ▸ spelled.arraySuffix_eq,
    fun isReserved => spelled.of_reserved (isSame ▸ isReserved)⟩

/-- Registering a shape does not change how names are made up. -/
theorem register (spelled : first.Spelled context) (candidate : String) (shape : Shape)
    (doc : Option String) (deprecated : Bool) (origin : Origin) :
    Spelled context { first with
      registry := (first.registry.register candidate shape doc deprecated origin).2 } := by
  rcases first.registry.register_cases candidate shape doc deprecated origin with
    ⟨_, _, _, _, isSame⟩ | ⟨_, _, isDeclared⟩
  · exact spelled.same (congrArg Prod.snd isSame)
  · exact spelled.declare (congrArg Prod.snd isDeclared)

/-- Nor does any run. -/
theorem runs (spelled : first.Spelled context) (runs : Runs context first last) :
    last.Spelled context := by
  induction runs with
  | refl => exact spelled
  | register _ candidate shape doc deprecated path _ ih => exact (ih spelled).register _ _ _ _ _
  | report _ _ _ _ ih => exact (ih spelled).same rfl
  | @component _ middle _ _ name _ _ _ _ _ _ _ result _ _ ih insideIh =>
    have begun : (middle.begin name).Spelled context := (ih spelled).same rfl
    have inside := insideIh begun
    cases result with
    | ok => exact inside.declare rfl
    | error => exact inside.same rfl

end Workspace.Spelled

/-- Whatever is declared in a workspace stands in a registry. -/
def Workspace.KeptIn (workspace : Workspace) (registry : Registry) : Prop :=
  ∀ name declaration, workspace.registry.get? name = some declaration →
    registry.get? name = some declaration

/--
A consistent workspace in which some schemas have been started and names are made up as the settings
say.
-/
structure Workspace.Orderly (context : Context) (active : List String) (workspace : Workspace) :
    Prop where
  consistent : Consistent context workspace
  started : Started active workspace
  spelled : workspace.Spelled context

/--
The walk of a node has given a shape at some time, and all that was declared by then stays in a
registry.
-/
inductive Synthesis.HasGiven (context : Context) (registry : Registry) (node : SchemaNode)
    (scope : Scope) (shape : Shape) : Prop
  | walk {muted : Bool} {active expanding : List String} {first last : Workspace}
    (orderly : first.Orderly context active)
    (declares : (((within context muted active expanding).walk node).declare scope 0).Ends first
      (.ok shape) last) (kept : last.KeptIn registry)

/-- A component schema has been declared with the shape that the walk of its node has given. -/
inductive Workspace.HasDeclared (context : Context) (workspace : Workspace) (schema : String) : Prop
  | component {node : SchemaNode} {declaration : Declaration}
    (found : context.model.node? schema = some node)
    (emitted : context.emitted? schema = some declaration.name)
    (stands : workspace.registry.get? declaration.name = some declaration)
    (given : Synthesis.HasGiven context workspace.registry node
      ⟨declaration.name, Pointer.ofSchema schema⟩ declaration.shape)

namespace Workspace

/-- What has been declared stays so while its declaration does. -/
theorem HasDeclared.mono {schema : String} (declared : first.HasDeclared context schema)
    (kept : first.KeptIn last.registry) : last.HasDeclared context schema := by
  cases declared with
  | component found emitted stands given =>
    cases given with
    | walk orderly declares stays =>
      exact .component found emitted (kept _ _ stands)
        (.walk orderly declares fun name declaration stands =>
          kept name declaration (stays name declaration stands))

/-- Every component schema that is registered has been declared. -/
def HasDeclaredAll (context : Context) (workspace : Workspace) : Prop :=
  ∀ schema, workspace.resolver.state schema = .registered → workspace.HasDeclared context schema

namespace HasDeclaredAll

/-- Nothing else needs a declaration while nothing else is registered. -/
theorem mono (declared : first.HasDeclaredAll context)
    (kept : first.KeptIn last.registry)
    (same : ∀ schema, last.resolver.state schema = .registered →
      first.resolver.state schema = .registered) : last.HasDeclaredAll context :=
  fun schema isRegistered => (declared schema (same schema isRegistered)).mono kept

/-- A component schema that is concluded with the shape that its node has given is declared with that. -/
theorem conclude {inner : Workspace} (declared : inner.HasDeclaredAll context) {schema name : String}
    {node : SchemaNode} {shape : Shape} (found : context.model.node? schema = some node)
    (isEmitted : context.emitted? schema = some name)
    (undeclared : inner.registry.get? name = none)
    (given : ∀ {registry}, inner.KeptIn registry →
      Synthesis.HasGiven context registry node ⟨name, Pointer.ofSchema schema⟩ shape) :
    (inner.conclude schema name node (.ok shape)).HasDeclaredAll context := by
  -- The name was free, so no declaration is replaced.
  have kept : inner.KeptIn (inner.conclude schema name node (.ok shape)).registry := by
    intro other declaration stands
    rw [Workspace.conclude, Registry.fill, Registry.get?_declare, if_neg, stands]
    rintro rfl
    simp [undeclared] at stands
  intro other isRegistered
  by_cases isSame : other = schema
  · subst isSame
    let declaration : Declaration :=
      { name, shape, doc := node.traits.description, deprecated := node.traits.deprecated
        origin := .component other }
    have stands : (inner.conclude other name node (.ok shape)).registry.get? declaration.name =
        some declaration := by
      rw [Workspace.conclude, Registry.fill, Registry.get?_declare, if_pos rfl]
    exact @HasDeclared.component _ _ _ node declaration found isEmitted stands (given kept)
  · rw [Workspace.state_conclude, if_neg isSame] at isRegistered
    exact (declared other isRegistered).mono kept

/-- What runs register they declare. -/
theorem runs (runs : Runs context first last) (consistent : Consistent context first)
    (spelled : first.Spelled context) (declared : first.HasDeclaredAll context) :
    last.HasDeclaredAll context := by
  induction runs with
  | refl => exact declared
  | register earlier candidate shape doc deprecated path _ ih =>
    have ⟨before, _⟩ := earlier.consistent consistent
    have ⟨_, grows⟩ := before.register candidate shape doc deprecated path
    exact (ih consistent spelled declared).mono (fun _ _ => grows.get?_eq) fun _ => id
  | report _ _ _ _ ih => exact (ih consistent spelled declared).mono (fun _ _ => id) fun _ => id
  | @component _ middle inner earlier name node found pending muted active expanding started result
      ends inside ih insideIh =>
    have ⟨before, _⟩ := earlier.consistent consistent
    have isSpelled := spelled.runs earlier
    have begun := before.begin found pending
    have ⟨within, grows⟩ := inside.consistent begun
    have isEmitted := before.emitted?_eq_scopeOf found
    have undeclared := within.undeclared_of_resolving isEmitted grows.resolving
    have start : (middle.begin name).HasDeclaredAll context :=
      (ih consistent spelled declared).mono (fun _ _ => id) fun schema isRegistered =>
        Workspace.state_of_begin isRegistered (by simp)
    -- Inside, the schema is in progress, and owes no declaration until it is concluded.
    have beginSpelled : (middle.begin name).Spelled context := isSpelled.same rfl
    have declaredInside := insideIh begun beginSpelled start
    cases result with
    | error located =>
      exact declaredInside.mono (fun _ _ => id) fun schema isRegistered =>
        Workspace.state_of_conclude isRegistered (by simp)
    | ok shape =>
      exact declaredInside.conclude found isEmitted undeclared fun kept =>
        .walk ⟨begun, Synthesis.started_begin started, beginSpelled⟩
          ((Synthesis.ends_shapeWithin_ok_iff _ _ _ _).mp ends).1 kept

end HasDeclaredAll

end Workspace

/-- In every workspace of synthesis names are made up as the settings say. -/
theorem Reachable.spelled {workspace : Workspace} (reachable : Reachable context workspace) :
    workspace.Spelled context := by
  induction reachable with
  | initial => exact .ofContext context
  | runs _ runs ih => exact ih.runs runs
  | failure _ located ih => exact ih.same rfl

/-- Every component schema that is registered in synthesis has been declared. -/
theorem Reachable.hasDeclaredAll {workspace : Workspace} (reachable : Reachable context workspace) :
    workspace.HasDeclaredAll context := by
  induction reachable with
  | initial =>
    intro schema isRegistered
    rw [Workspace.state_ofContext] at isRegistered
    cases isRegistered
  | runs before runs ih => exact .runs runs before.consistent before.spelled ih
  | failure before located ih => exact ih.mono (fun _ _ => id) fun _ => id

end ApiTypes

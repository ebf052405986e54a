import ApiTypes.Proofs.Synthesis.Reservation
import ApiTypes.Proofs.Synthesis.Run

/-!
What holds at any time of synthesis: the states of the component schemas agree with what is declared.
And what a run may change: nothing that is declared, and no state but that of a pending schema.
-/

namespace ApiTypes

/-- The states of the component schemas and the declarations of a workspace agree. -/
structure Consistent (context : Context) (workspace : Workspace) : Prop where
  emitted_eq : workspace.resolver.emitted = (Workspace.ofContext context).resolver.emitted
  schemas_eq : workspace.resolver.schemas = (Workspace.ofContext context).resolver.schemas
  components_eq : workspace.registry.components = (Workspace.ofContext context).registry.components
  wellFormed : workspace.registry.WellFormed
  /-- The names held for component schemas stay taken. -/
  taken : ∀ {schema name}, context.emitted? schema = some name →
    workspace.registry.slots.get? name ≠ none
  /-- The declaration of a component schema stands under the name held for it. -/
  of_component : ∀ {name declaration schema}, workspace.registry.get? name = some declaration →
    declaration.origin = .component schema →
    context.emitted? schema = some name ∧ workspace.resolver.state schema = .registered
  /-- A shape inside a schema takes no name that is held for a component schema. -/
  of_inline : ∀ {name declaration path schema}, workspace.registry.get? name = some declaration →
    declaration.origin = .inline path → context.emitted? schema ≠ some name
  registered : ∀ {schema}, workspace.resolver.state schema = .registered →
    ∃ name declaration, context.emitted? schema = some name ∧
      workspace.registry.get? name = some declaration ∧ declaration.origin = .component schema
  of_state : ∀ {schema}, workspace.resolver.state schema ≠ .pending →
    schema ∈ context.model.names
  /-- Only a component schema that is an enumeration is declared as one. -/
  of_enum : ∀ {name declaration schema node}, workspace.registry.get? name = some declaration →
    declaration.origin = .component schema → context.model.node? schema = some node →
    declaration.shape.isEnum = true → node.kind.isEnum = true

namespace Resolver

/-- A schema that is started is in progress, and the states of the others stay. -/
theorem state_start (resolver : Resolver) (started name : String) :
    (resolver.start started).state name =
      if name = started then .resolving else resolver.state name := by
  simp only [state, start, Table.get?_insert]
  split <;> rfl

/-- A schema that ends has its outcome as its state, and the states of the others stay. -/
theorem state_finish (resolver : Resolver) (ended : String) (outcome : EntryState)
    (name : String) : (resolver.finish ended outcome).state name =
      if name = ended then outcome else resolver.state name := by
  simp only [state, finish, Table.get?_insert]
  split <;> rfl

end Resolver

namespace Workspace

/-- What begins with a schema is in progress, and the states of the others stay. -/
theorem state_begin (workspace : Workspace) (name schema : String) :
    (workspace.begin name).resolver.state schema =
      if schema = name then .resolving else workspace.resolver.state schema :=
  workspace.resolver.state_start name schema

/-- What has been started stays so when a schema begins. -/
theorem started_begin {workspace : Workspace} {schema : String} (name : String)
    (started : workspace.resolver.state schema ≠ .pending) :
    (workspace.begin name).resolver.state schema ≠ .pending := by
  rw [state_begin]
  split
  · simp
  · exact started

/-- A schema that is concluded is registered or has failed, and the states of the others stay. -/
theorem state_conclude (workspace : Workspace) (name emitted : String) (node : SchemaNode)
    (result : Except LocatedFailure Shape) (schema : String) :
    (workspace.conclude name emitted node result).resolver.state schema =
      if schema = name then (match result with | .ok _ => .registered | .error _ => .failed)
      else workspace.resolver.state schema := by
  cases result <;> exact workspace.resolver.state_finish name _ schema

/-- What has been started stays so when a schema is concluded. -/
theorem started_conclude {workspace : Workspace} {schema : String}
    (started : workspace.resolver.state schema ≠ .pending) (name emitted : String) (node : SchemaNode)
    (result : Except LocatedFailure Shape) :
    (workspace.conclude name emitted node result).resolver.state schema ≠ .pending := by
  rw [state_conclude]
  split
  · cases result <;> simp
  · exact started

/-- What is not in progress when a schema has begun was in the same state before. -/
theorem state_of_begin {workspace : Workspace} {name schema : String} {state : EntryState}
    (isState : (workspace.begin name).resolver.state schema = state) (settled : state ≠ .resolving) :
    workspace.resolver.state schema = state := by
  rw [state_begin] at isState
  split at isState
  · exact absurd isState.symm settled
  · exact isState

/-- What is not in the state of the schema that is concluded was in the same state before. -/
theorem state_of_conclude {workspace : Workspace} {name emitted schema : String} {node : SchemaNode}
    {result : Except LocatedFailure Shape} {state : EntryState}
    (isState : (workspace.conclude name emitted node result).resolver.state schema = state)
    (differs : match result with | .ok _ => state ≠ .registered | .error _ => state ≠ .failed) :
    workspace.resolver.state schema = state := by
  rw [state_conclude] at isState
  split at isState
  · cases result <;> exact absurd isState.symm differs
  · exact isState

end Workspace

/-- What any run keeps of a workspace. -/
structure Grows (first last : Workspace) : Prop where
  state_eq : ∀ {schema}, first.resolver.state schema ≠ .pending →
    last.resolver.state schema = first.resolver.state schema
  /-- A run leaves no schema in progress that it has started. -/
  of_pending : ∀ {schema}, first.resolver.state schema = .pending →
    last.resolver.state schema ≠ .resolving
  get?_eq : ∀ {name declaration}, first.registry.get? name = some declaration →
    last.registry.get? name = some declaration
  order : first.registry.order <+: last.registry.order
  diagnostics : first.diagnostics <+: last.diagnostics

namespace Grows

/-- Nothing is changed by no run. -/
theorem refl (workspace : Workspace) : Grows workspace workspace where
  state_eq _ := rfl
  of_pending pending := by simp [pending]
  get?_eq found := found
  order := List.prefix_rfl
  diagnostics := List.prefix_rfl

/-- What two runs keep is kept by both of them together. -/
theorem trans {first middle last : Workspace} (earlier : Grows first middle)
    (later : Grows middle last) : Grows first last where
  state_eq started := by
    have same := earlier.state_eq started
    rw [later.state_eq (same ▸ started), same]
  of_pending {schema} pending := by
    by_cases still : middle.resolver.state schema = .pending
    · exact later.of_pending still
    · rw [later.state_eq still]
      exact earlier.of_pending pending
  get?_eq found := later.get?_eq (earlier.get?_eq found)
  order := earlier.order.trans later.order
  diagnostics := earlier.diagnostics.trans later.diagnostics

end Grows

namespace Consistent

variable {context : Context} {workspace : Workspace}

/-- The workspace in which synthesis starts is consistent. -/
theorem ofContext (context : Context) : Consistent context (Workspace.ofContext context) := by
  -- In the beginning names are only reserved, and no schema has been started.
  have reserves := Workspace.reserves_ofContext context
  have undeclared : ∀ name, (Workspace.ofContext context).registry.get? name = none := by
    intro name
    rw [Registry.get?, reserves.slots_eq]
    cases (Workspace.ofContext context).resolver.schemas.get? name <;> rfl
  have pending := Workspace.state_ofContext context
  exact {
    emitted_eq := rfl
    schemas_eq := rfl
    components_eq := rfl
    wellFormed := {
      nodup_order := reserves.order_eq ▸ List.nodup_nil
      mem_order_iff := fun name => by simp [reserves.order_eq, Registry.isDeclared, undeclared]
      name_eq := fun found => by simp [undeclared] at found }
    taken := fun {schema name} emitted => by
      rw [reserves.slots_eq, (reserves.inverse schema name).mpr emitted]
      simp
    of_component := fun found _ => by simp [undeclared] at found
    of_inline := fun found _ => by simp [undeclared] at found
    registered := fun {schema} isRegistered => by simp [pending] at isRegistered
    of_state := fun {schema} started => absurd (pending schema) started
    of_enum := fun found => by simp [undeclared] at found }

/-- The component schema of a type name is found under it. -/
theorem schemas_get?_iff (consistent : Consistent context workspace) (schema name : String) :
    workspace.resolver.schemas.get? name = some schema ↔ context.emitted? schema = some name := by
  rw [consistent.schemas_eq]
  exact (Workspace.reserves_ofContext context).inverse schema name

/-- The type name of a component schema is the one held for it. -/
theorem emitted_get? (consistent : Consistent context workspace) (schema : String) :
    workspace.resolver.emitted.get? schema = context.emitted? schema := by
  rw [consistent.emitted_eq, Context.emitted?]

/-- A declared name that is held for a component schema is declared for that schema. -/
theorem registered_of_declared (consistent : Consistent context workspace) {schema name : String}
    {declaration : Declaration} (emitted : context.emitted? schema = some name)
    (found : workspace.registry.get? name = some declaration) :
    declaration.origin = .component schema ∧ workspace.resolver.state schema = .registered := by
  cases origin : declaration.origin with
  | inline path => exact absurd emitted (consistent.of_inline found origin)
  | component other =>
    obtain ⟨also, isRegistered⟩ := consistent.of_component found origin
    cases Context.emitted?_injective emitted also
    exact ⟨rfl, isRegistered⟩

/-- Starting a pending schema leaves a workspace consistent. -/
theorem begin (consistent : Consistent context workspace) {name : String} {node : SchemaNode}
    (found : context.model.node? name = some node)
    (pending : workspace.resolver.state name = .pending) :
    Consistent context (workspace.begin name) where
  emitted_eq := consistent.emitted_eq
  schemas_eq := consistent.schemas_eq
  components_eq := consistent.components_eq
  wellFormed := consistent.wellFormed
  taken := consistent.taken
  of_component {_ _ schema} isFound origin := by
    -- The started schema was not declared.
    obtain ⟨emitted, isRegistered⟩ := consistent.of_component isFound origin
    refine ⟨emitted, ?_⟩
    rw [Workspace.begin, Resolver.state_start, if_neg, isRegistered]
    rintro rfl
    simp [pending] at isRegistered
  of_inline := consistent.of_inline
  registered {schema} isRegistered :=
    consistent.registered (Workspace.state_of_begin isRegistered (by simp))
  of_state {schema} started := by
    rw [Workspace.begin, Resolver.state_start] at started
    split at started
    · rename_i isStarted
      exact isStarted ▸ context.model.mem_names found
    · exact consistent.of_state started
  of_enum := consistent.of_enum

/-- The name of a component schema whose synthesis begins is the one held for it. -/
theorem emitted?_eq_scopeOf (consistent : Consistent context workspace) {name : String}
    {node : SchemaNode} (found : context.model.node? name = some node) :
    context.emitted? name = some (workspace.scopeOf name).name := by
  obtain ⟨emitted, isEmitted⟩ :=
    (context.exists_emitted?_iff name).mpr (context.model.mem_names found)
  simp [Workspace.scopeOf, Synthesis.emittedName, consistent.emitted_get?, isEmitted]

/-- Registering a shape inside a schema leaves a workspace consistent. -/
theorem register (consistent : Consistent context workspace) (candidate : String) (shape : Shape)
    (doc : Option String) (deprecated : Bool) (path : String) :
    Consistent context { workspace with
      registry := (workspace.registry.register candidate shape doc deprecated (.inline path)).2 } ∧
    Grows workspace { workspace with
      registry := (workspace.registry.register candidate shape doc deprecated (.inline path)).2 } := by
  rcases workspace.registry.register_cases candidate shape doc deprecated (.inline path) with
    ⟨_, _, _, _, isSame⟩ | ⟨name, free, isDeclared⟩
  · rw [isSame]
    exact ⟨consistent, Grows.refl workspace⟩
  · rw [isDeclared]
    have undeclared := Registry.get?_eq_none_of_slot free
    constructor
    · exact {
        emitted_eq := consistent.emitted_eq
        schemas_eq := consistent.schemas_eq
        components_eq := consistent.components_eq
        wellFormed := consistent.wellFormed.declare _
        taken := fun emitted => by
          rw [Registry.declare, Table.get?_insert]
          split
          · simp
          · exact consistent.taken emitted
        of_component := fun found origin => by
          rw [Registry.get?_declare] at found
          split at found
          · cases found
            cases origin
          · exact consistent.of_component found origin
        of_inline := fun found origin emitted => by
          -- A free name is not held for any component schema.
          rw [Registry.get?_declare] at found
          split at found
          · rename_i isName
            exact consistent.taken emitted (isName ▸ free)
          · exact consistent.of_inline found origin emitted
        registered := fun isRegistered => by
          obtain ⟨emitted, declaration, isEmitted, found, origin⟩ :=
            consistent.registered isRegistered
          refine ⟨emitted, declaration, isEmitted, ?_, origin⟩
          rw [Registry.get?_declare, if_neg, found]
          rintro rfl
          simp [undeclared] at found
        of_state := consistent.of_state
        of_enum := fun found origin isNode isEnum => by
          rw [Registry.get?_declare] at found
          split at found
          · cases found
            cases origin
          · exact consistent.of_enum found origin isNode isEnum }
    · exact {
        state_eq := fun _ => rfl
        of_pending := fun pending => by simp [pending]
        get?_eq := fun found => by
          rw [Registry.get?_declare, if_neg, found]
          rintro rfl
          simp [undeclared] at found
        order := by
          rw [Registry.order_declare]
          split
          · exact List.prefix_rfl
          · exact List.prefix_append _ _
        diagnostics := List.prefix_rfl }

/-- A report leaves a workspace consistent. -/
theorem report (consistent : Consistent context workspace) (path : String) (cause : Cause) :
    Consistent context (workspace.report path cause) ∧
      Grows workspace (workspace.report path cause) :=
  ⟨⟨consistent.emitted_eq, consistent.schemas_eq, consistent.components_eq, consistent.wellFormed,
    consistent.taken, consistent.of_component, consistent.of_inline, consistent.registered,
    consistent.of_state, consistent.of_enum⟩,
   ⟨fun _ => rfl, fun pending => by simp [Workspace.report, pending], id, List.prefix_rfl,
    List.prefix_append _ _⟩⟩

/-- Nothing stands under the name held for a schema in progress. -/
theorem undeclared_of_resolving (consistent : Consistent context workspace) {schema name : String}
    (emitted : context.emitted? schema = some name)
    (resolving : workspace.resolver.state schema = .resolving) :
    workspace.registry.get? name = none := by
  cases stands : workspace.registry.get? name with
  | none => rfl
  | some declaration =>
    simp [(consistent.registered_of_declared emitted stands).2] at resolving

/-- Concluding a schema in progress starts no other one. -/
theorem of_state_conclude (consistent : Consistent context workspace) {name emitted : String}
    (resolving : workspace.resolver.state name = .resolving) {node : SchemaNode}
    {result : Except LocatedFailure Shape} {schema : String}
    (started : (workspace.conclude name emitted node result).resolver.state schema ≠ .pending) :
    schema ∈ context.model.names := by
  by_cases isSame : schema = name
  · exact consistent.of_state (by simp [isSame, resolving])
  · rw [Workspace.state_conclude, if_neg isSame] at started
    exact consistent.of_state started

/-- Concluding a schema in progress by its shape leaves a workspace consistent. -/
theorem conclude_ok (consistent : Consistent context workspace) {name emitted : String}
    (isEmitted : context.emitted? name = some emitted)
    (resolving : workspace.resolver.state name = .resolving) {node : SchemaNode} {shape : Shape}
    (isNode : context.model.node? name = some node)
    (fits : shape.isEnum = true → node.kind.isEnum = true) :
    Consistent context (workspace.conclude name emitted node (.ok shape)) where
  emitted_eq := consistent.emitted_eq
  schemas_eq := consistent.schemas_eq
  components_eq := consistent.components_eq
  wellFormed := consistent.wellFormed.declare _
  taken isHeld := by
    simp only [Workspace.conclude, Registry.fill, Registry.declare, Table.get?_insert]
    split
    · simp
    · exact consistent.taken isHeld
  of_component {_ _ schema} stands origin := by
    simp only [Workspace.conclude, Registry.fill, Registry.get?_declare,
      Resolver.state_finish] at stands ⊢
    -- The declaration is the one that is filled in, or it stood before.
    split at stands
    · rename_i isName
      cases stands
      cases origin
      exact ⟨isName ▸ isEmitted, if_pos rfl⟩
    · obtain ⟨isHeld, isRegistered⟩ := consistent.of_component stands origin
      exact ⟨isHeld, by split <;> simp [isRegistered]⟩
  of_inline stands origin := by
    simp only [Workspace.conclude, Registry.fill, Registry.get?_declare] at stands
    split at stands
    · cases stands
      cases origin
    · exact consistent.of_inline stands origin
  -- Another registered schema has a declaration, so its name is not the one filled in now.
  registered {schema} isRegistered := by
    simp only [Workspace.conclude, Registry.fill, Registry.get?_declare,
      Resolver.state_finish] at isRegistered ⊢
    split at isRegistered
    · rename_i isSame
      subst isSame
      exact ⟨emitted, _, isEmitted, if_pos rfl, rfl⟩
    · obtain ⟨held, declaration, isHeld, stands, origin⟩ := consistent.registered isRegistered
      refine ⟨held, declaration, isHeld, ?_, origin⟩
      rw [if_neg, stands]
      rintro rfl
      simp [consistent.undeclared_of_resolving isEmitted resolving] at stands
  of_state := consistent.of_state_conclude resolving
  of_enum stands origin alsoNode isEnum := by
    simp only [Workspace.conclude, Registry.fill, Registry.get?_declare] at stands
    split at stands
    · cases stands
      cases origin
      cases isNode.symm.trans alsoNode
      exact fits isEnum
    · exact consistent.of_enum stands origin alsoNode isEnum

/-- Concluding a schema in progress by a failure leaves a workspace consistent. -/
theorem conclude_error (consistent : Consistent context workspace) {name : String}
    (resolving : workspace.resolver.state name = .resolving) (emitted : String) (node : SchemaNode)
    (located : LocatedFailure) :
    Consistent context (workspace.conclude name emitted node (.error located)) where
  emitted_eq := consistent.emitted_eq
  schemas_eq := consistent.schemas_eq
  components_eq := consistent.components_eq
  wellFormed := consistent.wellFormed
  taken := consistent.taken
  of_component stands origin := by
    obtain ⟨isHeld, isRegistered⟩ := consistent.of_component stands origin
    refine ⟨isHeld, ?_⟩
    simp only [Workspace.conclude, Resolver.state_finish]
    -- The failed schema was in progress, and so not registered.
    rw [if_neg, isRegistered]
    rintro rfl
    simp [resolving] at isRegistered
  of_inline := consistent.of_inline
  registered isRegistered := by
    simp only [Workspace.conclude, Resolver.state_finish] at isRegistered
    split at isRegistered
    · cases isRegistered
    · exact consistent.registered isRegistered
  of_state := consistent.of_state_conclude resolving
  of_enum := consistent.of_enum

end Consistent

namespace Grows

variable {first last : Workspace} {name : String}

/-- A schema that begins is in progress until it is concluded. -/
theorem resolving (grows : Grows (first.begin name) last) :
    last.resolver.state name = .resolving := by
  have begun : (first.begin name).resolver.state name = .resolving := by
    simp [Workspace.begin, Resolver.state_start]
  rw [grows.state_eq (by simp [begun]), begun]

/-- Whatever a schema ends with, its conclusion keeps what was there before it began. -/
theorem conclude (grows : Grows (first.begin name) last)
    (pending : first.resolver.state name = .pending) {emitted : String}
    (undeclared : last.registry.get? emitted = none) (node : SchemaNode)
    (result : Except LocatedFailure Shape) :
    Grows first (last.conclude name emitted node result) where
  -- The schema itself was pending, so nothing is claimed about it.
  state_eq {schema} started := by
    have other : schema ≠ name := fun isSame => started (isSame ▸ pending)
    have same : (first.begin name).resolver.state schema = first.resolver.state schema := by
      rw [Workspace.begin, Resolver.state_start, if_neg other]
    have kept := grows.state_eq (same ▸ started)
    cases result <;> simp only [Workspace.conclude, Resolver.state_finish, if_neg other] <;>
      exact kept.trans same
  of_pending {schema} isPending := by
    by_cases isName : schema = name
    · cases result <;> simp [Workspace.conclude, Resolver.state_finish, isName]
    · have same : (first.begin name).resolver.state schema = .pending := by
        rw [Workspace.begin, Resolver.state_start, if_neg isName, isPending]
      cases result <;> simp only [Workspace.conclude, Resolver.state_finish, if_neg isName] <;>
        exact grows.of_pending same
  get?_eq {other declaration} stands := by
    have kept := grows.get?_eq stands
    cases result with
    | error => exact kept
    | ok shape =>
      simp only [Workspace.conclude, Registry.fill, Registry.get?_declare]
      -- What stood before is not the name that is free until now.
      rw [if_neg, kept]
      rintro rfl
      simp [undeclared] at kept
  order := by
    cases result with
    | error => exact grows.order
    | ok shape =>
      refine grows.order.trans ?_
      simp only [Workspace.conclude, Registry.fill, Registry.order_declare]
      split
      · exact List.prefix_rfl
      · exact List.prefix_append _ _
  diagnostics := by
    cases result with
    | ok => exact grows.diagnostics
    | error => exact grows.diagnostics.trans (List.prefix_append _ _)

end Grows

/-- Concluding a component schema leaves a workspace consistent. -/
theorem Consistent.conclude {context : Context} {middle inner : Workspace}
    (before : Consistent context middle) (consistent : Consistent context inner) {name : String}
    {node : SchemaNode} (found : context.model.node? name = some node)
    (pending : middle.resolver.state name = .pending) (grows : Grows (middle.begin name) inner)
    {result : Except LocatedFailure Shape}
    (fits : ∀ shape, result = .ok shape → shape.isEnum = true → node.kind.isEnum = true) :
    Consistent context (inner.conclude name (middle.scopeOf name).name node result) ∧
      Grows middle (inner.conclude name (middle.scopeOf name).name node result) := by
  have isEmitted := before.emitted?_eq_scopeOf found
  refine ⟨?_, grows.conclude pending
    (consistent.undeclared_of_resolving isEmitted grows.resolving) node result⟩
  cases result with
  | ok shape => exact consistent.conclude_ok isEmitted grows.resolving found (fits shape rfl)
  | error located => exact consistent.conclude_error grows.resolving _ node located

/-- A run keeps a workspace consistent, and keeps what is declared in it. -/
theorem Runs.consistent {context : Context} {first last : Workspace}
    (runs : Runs context first last) (consistent : Consistent context first) :
    Consistent context last ∧ Grows first last := by
  -- The induction is on the run; what happens inside a schema is a run that starts where it has begun.
  induction runs with
  | refl workspace => exact ⟨consistent, Grows.refl workspace⟩
  | register _ candidate shape doc deprecated path _ ih =>
    obtain ⟨before, earlier⟩ := ih consistent
    obtain ⟨after, later⟩ := before.register candidate shape doc deprecated path
    exact ⟨after, earlier.trans later⟩
  | report _ path cause _ ih =>
    obtain ⟨before, earlier⟩ := ih consistent
    obtain ⟨after, later⟩ := before.report path cause
    exact ⟨after, earlier.trans later⟩
  | component _ found pending _ _ ends _ ih insideIh =>
    rename_i node _ _ _ _ result _
    obtain ⟨before, earlier⟩ := ih consistent
    obtain ⟨inner, grows⟩ := insideIh (before.begin found pending)
    have fits : ∀ shape, result = .ok shape → shape.isEnum = true →
        node.kind.isEnum = true := by
      rintro shape rfl isEnum
      have declares := ((Synthesis.ends_shapeWithin_ok_iff _ _ _ _).mp ends).1
      exact Surroundings.isEnum_of_declare _ _ declares isEnum
    obtain ⟨after, later⟩ := before.conclude inner found pending grows fits
    exact ⟨after, earlier.trans later⟩

end ApiTypes

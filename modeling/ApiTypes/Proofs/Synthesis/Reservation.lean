import ApiTypes.Proofs.Registry
import ApiTypes.Synthesis.Workspace

/-!
The names held for component schemas before synthesis starts: every schema has one, no two schemas
share theirs, and nothing is declared yet.
-/

namespace ApiTypes

namespace Workspace

/-- Names are held for the given component schemas, one for each, and nothing else has happened. -/
structure Reserves (workspace : Workspace) (schemas : List String) : Prop where
  emitted_eq : ∀ schema, workspace.registry.components.get? schema =
    workspace.resolver.emitted.get? schema
  mem_iff : ∀ schema, (∃ name, workspace.resolver.emitted.get? schema = some name) ↔
    schema ∈ schemas
  inverse : ∀ schema name, workspace.resolver.schemas.get? name = some schema ↔
    workspace.resolver.emitted.get? schema = some name
  slots_eq : ∀ name, workspace.registry.slots.get? name =
    (workspace.resolver.schemas.get? name).map fun _ => .reserved
  nodup_components : workspace.registry.components.keys.Nodup
  order_eq : workspace.registry.order = []
  states_eq : workspace.resolver.states = {}
  diagnostics_eq : workspace.diagnostics = []

/-- The workspace in which one more component schema has a name. -/
def reserve (workspace : Workspace) (schema : String) : Workspace :=
  let (emitted, registry) := workspace.registry.reserve schema
  { workspace with registry, resolver := workspace.resolver.bindName schema emitted }

/-- What holds at first and is preserved when a name is held holds before synthesis starts. -/
theorem holds_ofContext (property : Workspace → Prop) (context : Context)
    (initial : property { resolver := {}, registry := Registry.ofConfig context.config })
    (step : ∀ workspace schema, property workspace → property (workspace.reserve schema)) :
    property (ofContext context) :=
  List.foldlRecOn context.model.names reserve initial fun workspace holds schema _ =>
    step workspace schema holds

/-- Before anything is reserved, nothing is. -/
theorem reserves_initial (config : Config) :
    Reserves { resolver := {}, registry := Registry.ofConfig config } [] where
  emitted_eq _ := rfl
  mem_iff _ := by
    constructor
    · rintro ⟨_, found⟩
      cases found
    · simp
  inverse _ _ := by constructor <;> (intro found; cases found)
  slots_eq _ := rfl
  nodup_components := List.nodup_nil
  order_eq := rfl
  states_eq := rfl
  diagnostics_eq := rfl

/-- Holding a name that is held already changes nothing that can be found. -/
theorem Reserves.again {workspace : Workspace} {schemas : List String}
    (reserves : workspace.Reserves schemas) {schema name : String}
    (held : workspace.registry.components.get? schema = some name) :
    (workspace.reserve schema).Reserves (schemas ++ [schema]) := by
  have emitted : workspace.resolver.emitted.get? schema = some name :=
    reserves.emitted_eq schema ▸ held
  have inverted := (reserves.inverse schema name).mpr emitted
  have same : workspace.reserve schema =
      { workspace with resolver := workspace.resolver.bindName schema name } := by
    simp [reserve, Registry.reserve, held]
  -- Storing what is stored already finds the same as before.
  have emitted_same : ∀ other, (workspace.resolver.emitted.insert schema name).get? other =
      workspace.resolver.emitted.get? other := by
    intro other
    rw [Table.get?_insert]
    split
    · rename_i isSame
      rw [isSame, emitted]
    · rfl
  have schemas_same : ∀ other, (workspace.resolver.schemas.insert name schema).get? other =
      workspace.resolver.schemas.get? other := by
    intro other
    rw [Table.get?_insert]
    split
    · rename_i isSame
      rw [isSame, inverted]
    · rfl
  rw [same]
  refine ⟨fun other => ?_, fun other => ?_, fun other otherName => ?_, fun other => ?_,
    reserves.nodup_components, reserves.order_eq, reserves.states_eq, reserves.diagnostics_eq⟩
  · simpa [Resolver.bindName, emitted_same] using reserves.emitted_eq other
  · have isMember := (reserves.mem_iff schema).mp ⟨name, emitted⟩
    simp only [Resolver.bindName, emitted_same, reserves.mem_iff, List.mem_append,
      List.mem_singleton]
    exact ⟨.inl, fun either => either.elim id fun isSame => isSame ▸ isMember⟩
  · simpa [Resolver.bindName, emitted_same, schemas_same] using reserves.inverse other otherName
  · simpa [Resolver.bindName, schemas_same] using reserves.slots_eq other

/-- Holding a new name adds it to the tables. -/
theorem Reserves.fresh {workspace : Workspace} {schemas : List String}
    (reserves : workspace.Reserves schemas) {schema : String}
    (unheld : workspace.registry.components.get? schema = none) :
    (workspace.reserve schema).Reserves (schemas ++ [schema]) := by
  generalize isName : workspace.registry.freeName (workspace.registry.typeName schema) = name
  have free : workspace.registry.slots.get? name = none := isName ▸ Registry.get?_freeName _ _
  have same : workspace.reserve schema =
      { workspace with
        resolver := workspace.resolver.bindName schema name
        registry :=
          { workspace.registry with
            slots := workspace.registry.slots.insert name .reserved
            components := workspace.registry.components.insert schema name } } := by
    simp [reserve, Registry.reserve, unheld, isName]
  have unemitted : workspace.resolver.emitted.get? schema = none :=
    reserves.emitted_eq schema ▸ unheld
  have unbound : workspace.resolver.schemas.get? name = none := by
    simpa [free] using (reserves.slots_eq name).symm
  rw [same]
  refine ⟨fun other => ?_, fun other => ?_, fun other otherName => ?_, fun other => ?_,
    Table.nodup_keys_insert reserves.nodup_components _ _, reserves.order_eq, reserves.states_eq,
    reserves.diagnostics_eq⟩
  · simp only [Resolver.bindName, Table.get?_insert, reserves.emitted_eq]
  · simp only [Resolver.bindName, Table.get?_insert, List.mem_append, List.mem_singleton,
      ← reserves.mem_iff]
    by_cases isSame : other = schema <;> simp [isSame]
  · -- Neither the name nor the schema was in the tables, so the new entry is the only one for both.
    simp only [Resolver.bindName, Table.get?_insert]
    have known := reserves.inverse other otherName
    by_cases sameName : otherName = name <;> by_cases sameSchema : other = schema
    · simp [sameName, sameSchema]
    · subst sameName
      simpa [sameSchema, unbound, Ne.symm sameSchema] using known
    · subst sameSchema
      simpa [sameName, unemitted, Ne.symm sameName] using known
    · simpa [sameName, sameSchema] using known
  · simp only [Resolver.bindName, Table.get?_insert]
    split
    · rfl
    · exact reserves.slots_eq other

/-- Before synthesis starts, a name is held for every component schema of the model. -/
theorem reserves_ofContext (context : Context) :
    (ofContext context).Reserves context.model.names := by
  -- The names are held one after the other.
  have general : ∀ (rest schemas : List String) (workspace : Workspace),
      workspace.Reserves schemas → (rest.foldl reserve workspace).Reserves (schemas ++ rest) := by
    intro rest
    induction rest with
    | nil => exact fun schemas workspace reserves => by simpa using reserves
    | cons schema rest ih =>
      intro schemas workspace reserves
      have one : (workspace.reserve schema).Reserves (schemas ++ [schema]) := by
        cases held : workspace.registry.components.get? schema with
        | none => exact reserves.fresh held
        | some name => exact reserves.again held
      simpa using ih _ _ one
  exact general context.model.names [] _ (reserves_initial context.config)

/-- Before synthesis starts, no component schema has been started. -/
theorem state_ofContext (context : Context) (schema : String) :
    (ofContext context).resolver.state schema = .pending := by
  rw [Resolver.state, (reserves_ofContext context).states_eq]
  rfl

end Workspace

namespace Context

/-- The name held for the type of a component schema. -/
def emitted? (context : Context) (schema : String) : Option String :=
  (Workspace.ofContext context).resolver.emitted.get? schema

/-- Every component schema of the model has a name, and nothing else does. -/
theorem exists_emitted?_iff (context : Context) (schema : String) :
    (∃ name, context.emitted? schema = some name) ↔ schema ∈ context.model.names :=
  (Workspace.reserves_ofContext context).mem_iff schema

/-- What has a name held for it is a component schema. -/
theorem exists_node_of_emitted {context : Context} {schema name : String}
    (emitted : context.emitted? schema = some name) :
    ∃ node, context.model.node? schema = some node := by
  rw [← Option.ne_none_iff_exists']
  intro undefined
  exact (Table.get?_eq_none_iff _ _).mp undefined ((context.exists_emitted?_iff schema).mp ⟨_, emitted⟩)

/-- No two component schemas share a name. -/
theorem emitted?_injective {context : Context} {schema other name : String}
    (first : context.emitted? schema = some name) (second : context.emitted? other = some name) :
    schema = other := by
  have inverse := (Workspace.reserves_ofContext context).inverse
  exact Option.some.inj
    (((inverse schema name).mpr first).symm.trans ((inverse other name).mpr second))

end Context

end ApiTypes

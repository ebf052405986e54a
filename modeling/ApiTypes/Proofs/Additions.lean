import ApiTypes.Proofs.Invariance
import ApiTypes.Proofs.SchemaNodes
import ApiTypes.Proofs.Synthesis.Addition

/-!
What a document has in addition. Binding operations leaves everything that is derived from the component
schemas as it is without them. As long as no other schema refers to one more component schema and its
name is not wanted for another type, everything that is derived from a document is derived with it too.
-/

namespace ApiTypes

/-- The settings with operations or without them. -/
def Config.withOperations (config : Config) (includeOperations : Bool) : Config :=
  { config with includeOperations }

/-- One more entry under a new key changes nothing that is found under the others. -/
theorem Table.get?_append_of_ne {α : Type} (table : Table α) {added key : String} (value : α)
    (isOther : key ≠ added) :
    (⟨table.entries ++ [(added, value)]⟩ : Table α).get? key = table.get? key := by
  simp [Table.get?, List.find?_append, Ne.symm isOther]

/-- What a registry mentions is known when one more name is held. -/
theorem Workspace.HeldBeside.knowsMentions {context other : Context} {added held : String}
    {first also : Workspace} (beside : first.HeldBeside added held also)
    (free : first.registry.slots.get? held = none) (known : first.KnowsMentions context)
    (emitted : ∀ {schema name}, context.emitted? schema = some name → other.emitted? schema = some name) :
    also.KnowsMentions other := by
  have same := beside.registry.get?_eq free
  intro name mentioned mentions
  rw [Registry.Mentions, same] at mentions
  rcases known name mentioned mentions with declared | ⟨schema, isEmitted, started⟩
  · left
    rwa [Registry.isDeclared, same]
  · exact .inr ⟨schema, emitted isEmitted, by rwa [beside.state_eq]⟩

namespace Document

section

variable (document : Document) (config : Config)

/-- Whether operations are wanted makes no difference to component schemas. -/
theorem entered_withOperations (includeOperations : Bool) :
    document.entered (config.withOperations includeOperations) = document.entered config := by
  have same : (document.context config).Same
      (document.context (config.withOperations includeOperations)) := ⟨rfl, rfl, rfl⟩
  have enters : Synthesis.enterAll (document.context (config.withOperations includeOperations)) =
      Synthesis.enterAll (document.context config) := by
    rw [Synthesis.enterAll, Synthesis.enterAll, Synthesis.enter_same same]
    rfl
  rw [entered, enters]
  rfl

/-- In the end a name held for a component schema declares what it did before the operations. -/
theorem get?_entered_of_component {name schema : String} {declaration : Declaration}
    (found : (document.unfinished config).registry.get? name = some declaration)
    (isComponent : declaration.origin = .component schema) :
    (document.entered config).registry.get? name = some declaration := by
  have consistent := document.consistent_unfinished config
  have extension := document.unfinished_extends_entered config
  obtain ⟨emitted, registered⟩ := consistent.of_component found isComponent
  -- The schema was started before the operations, and so it was registered by then.
  have started := (document.runs_entered config).2 schema
    (consistent.of_state (by simp [registered]))
  have state_eq := (document.binds_unfinished config).state_eq started
  obtain ⟨held, other, isHeld, stands, _⟩ :=
    (document.consistent_entered config).registered (state_eq.symm.trans registered)
  cases isHeld.symm.trans emitted
  rw [stands, ← extension.get?_eq stands, found]

/--
With operations, the same component schemas have the same names and declarations as without them. Whatever
is declared or reported without operations is declared and reported with them, in the same order.
-/
theorem synthesize_withOperations :
    (document.synthesize (config.withOperations true)).names =
        (document.synthesize (config.withOperations false)).names ∧
      (document.synthesize (config.withOperations false)).declarations.Sublist
        (document.synthesize (config.withOperations true)).declarations ∧
      (document.synthesize (config.withOperations true)).declarations.filter
          (fun declaration => declaration.origin.isComponent) =
        (document.synthesize (config.withOperations false)).declarations.filter
          (fun declaration => declaration.origin.isComponent) ∧
      (document.synthesize (config.withOperations false)).diagnostics.Sublist
        (document.synthesize (config.withOperations true)).diagnostics := by
  have ⟨alone, none_bound⟩ := document.unfinished_of_alone (config.withOperations false) rfl
  rw [entered_withOperations, ← document.entered_withOperations config true] at alone
  rw [synthesize_eq, synthesize_eq, alone, none_bound]
  generalize config.withOperations true = wanted
  have before := document.consistent_entered wanted
  have after := document.consistent_unfinished wanted
  have extension := document.unfinished_extends_entered wanted
  have reported := (document.grows_unfinished wanted).diagnostics.sublist
  have reserves := Workspace.reserves_ofContext (document.context wanted)
  refine ⟨?_, ?_, ?_, ?_⟩
  · refine Workspace.names_finish_extends extension before.wellFormed after.wellFormed _ _ _ _ _
      (after.components_eq.trans before.components_eq.symm) fun entry isEntry declaration found => ?_
    -- The name is held for the schema of the entry, which has declared it before.
    rw [before.components_eq] at isEntry
    have emitted : (document.context wanted).emitted? entry.1 = some entry.2 := by
      rw [Context.emitted?, ← reserves.emitted_eq]
      exact Table.get?_of_mem_entries reserves.nodup_components isEntry
    have origin := (after.registered_of_declared emitted found).1
    exact ⟨by simp [origin, Origin.isComponent],
      document.get?_entered_of_component wanted found origin⟩
  · exact Workspace.declarations_finish_extends extension before.wellFormed after.wellFormed _ _ _ _ _
  · refine Workspace.components_finish_extends extension before.wellFormed after.wellFormed _ _ _ _ _
      fun declaration isDeclaration isComponent => ?_
    have found := (after.wellFormed.mem_declarations_iff declaration).mp isDeclaration
    cases origin : declaration.origin with
    | inline path => simp [origin, Origin.isComponent] at isComponent
    | component schema =>
      exact (before.wellFormed.mem_declarations_iff declaration).mpr
        (document.get?_entered_of_component wanted found origin)
  · exact Workspace.diagnostics_finish_extends extension before.wellFormed after.wellFormed _ _ _ _ _
      reported (List.Sublist.refl _)

end

/-- The document with one more component schema after all others. -/
def withSchema (document : Document) (added : String) (schema : Schema) : Document :=
  { document with
    components := some { document.components.getD {} with
      schemas := ⟨document.schemas.entries ++ [(added, schema)]⟩ } }

section

variable {document : Document} {config : Config} {added : String}

/-- A schema is added to the context if no other one refers to it. -/
theorem adds_withSchema (schema : Schema) (isNew : added ∉ document.schemas.keys)
    (unreferenced : ∀ other, ¬(document.context config).Refers other added) :
    (document.context config).Adds added ((document.withSchema added schema).context config) where
  agrees := {
    same := fun other isOther => by
      rw [context, context, SchemaModel.node?_ofDocument, SchemaModel.node?_ofDocument]
      exact congrArg _ (Table.get?_append_of_ne document.schemas schema isOther)
    closed := fun other target _ refers isAdded => unreferenced other (isAdded ▸ refers) }
  absent := by rwa [names_context]
  config_eq := rfl
  names_eq := by
    rw [names_context, names_context]
    exact List.map_append

end

variable (document : Document) (config : Config)

/-- The registry with one more component schema extends the one without it. -/
theorem withSchema_extends {added : String} (schema : Schema) (isNew : added ∉ document.schemas.keys)
    (unreferenced : ∀ other, ¬(document.context config).Refers other added) {held : String}
    (emitted : ((document.withSchema added schema).context config).emitted? added = some held)
    (free : (document.entered config).registry.slots.get? held = none) :
    ((document.withSchema added schema).entered config).registry.Extends
        (document.entered config).registry ∧
      ∀ other name, (document.context config).emitted? other = some name →
        ((document.withSchema added schema).context config).emitted? other = some name := by
  have adds := @adds_withSchema document config added schema isNew unreferenced
  have after := (document.withSchema added schema).consistent_entered config
  have last_eq : (document.withSchema added schema).entered config = ((Synthesis.enterAll
      ((document.withSchema added schema).context config)).run (Workspace.ofContext
        ((document.withSchema added schema).context config))).2 := rfl
  generalize (document.withSchema added schema).context config = context at *
  generalize (document.withSchema added schema).entered config = last at *
  -- All schemas but the added one are entered first, as they are without it.
  have beside := adds.heldBeside_ofContext emitted
  have between := Synthesis.forM_enter_beside adds
    (fun name isName isAdded => adds.absent (isAdded ▸ isName)) (Consistent.ofContext _) free beside
  have consistent := ((Synthesis.runs_forM_enter (document.context config).model.names
    (Consistent.ofContext context)).consistent (Consistent.ofContext context)).1
  rw [Synthesis.enterAll, adds.names_eq, List.forM_eq_forM, List.forM_append] at last_eq
  change last = ((Synthesis.enter context added).run (((document.context config).model.names.forM
    (Synthesis.enter context)).run (Workspace.ofContext context)).2).2 at last_eq
  change (document.entered config).HeldBeside added held _ at between
  generalize (((document.context config).model.names.forM (Synthesis.enter context)).run
    (Workspace.ofContext context)).2 = middle at *
  have grows : Grows middle last := by
    rw [last_eq]
    exact (Synthesis.entry_enter context added middle).advances consistent |>.2
  have stays : ∀ {other name}, (document.context config).emitted? other = some name →
      context.emitted? other = some name := by
    intro other name isEmitted
    have isName := ((document.context config).exists_emitted?_iff other).mp ⟨name, isEmitted⟩
    exact (beside.emitted_eq fun isAdded => adds.absent (isAdded ▸ isName)).trans isEmitted
  have known := between.knowsMentions free (document.knowsMentions_entered config).2 stays
  exact ⟨(grows.extends consistent after known).congr (between.registry.get?_eq free).symm
    between.registry.order_eq.symm, fun _ _ => stays⟩

/--
Where one more component schema is added, to which no other refers and whose name is not taken
otherwise, the declarations without it are returned with it in the same order, and so are the names.
-/
theorem synthesize_withSchema (alone : config.includeOperations = false) {added : String}
    (schema : Schema) (isNew : added ∉ document.schemas.keys)
    (unreferenced : ∀ other, ¬(document.context config).Refers other added) {held : String}
    (emitted : ((document.withSchema added schema).context config).emitted? added = some held)
    (free : (document.unfinished config).registry.slots.get? held = none) :
    (document.synthesize config).declarations.Sublist
        ((document.withSchema added schema).synthesize config).declarations ∧
      ∀ other name, (document.synthesize config).names.get? other = some name →
        ((document.withSchema added schema).synthesize config).names.get? other = some name := by
  obtain ⟨before, noneBound⟩ := document.unfinished_of_alone config alone
  obtain ⟨after, alsoNoneBound⟩ := (document.withSchema added schema).unfinished_of_alone config alone
  have ⟨extension, stays⟩ := document.withSchema_extends config schema isNew unreferenced emitted
    (before ▸ free)
  have wellFormed := (document.consistent_entered config).wellFormed
  have alsoWellFormed := ((document.withSchema added schema).consistent_entered config).wellFormed
  constructor
  · rw [synthesize_eq, synthesize_eq, before, after, noneBound, alsoNoneBound]
    exact Workspace.declarations_finish_extends extension wellFormed alsoWellFormed _ _ _ _ _
  · intro other name isName
    rw [names_synthesize_get?_iff, before] at isName
    rw [names_synthesize_get?_iff, after]
    have declared := Registry.isDeclared_of_supported isName.2
    exact ⟨stays other name isName.1, (extension.mem_supported_iff declared).mpr isName.2⟩

/-- An order refers to its customer and has an item of its own. -/
def orders : Document where
  openapi := "3.1.0"
  info := { title := "Orders", version := "1" }
  components := some {
    schemas := ⟨[
      ("Order", .inline {
        type := some (.single .object)
        properties := ⟨[("customer", .ref "#/components/schemas/Customer"),
          ("item", .inline {
            type := some (.single .object)
            properties := ⟨[("amount", .inline { type := some (.single .integer) })]⟩ })]⟩ }),
      ("Customer", .inline { type := some (.single .object) })]⟩ }

/-- A report on orders with rows that are not defined. -/
def reportOnOrders : Schema := .inline {
  type := some (.single .object)
  properties := ⟨[("order", .ref "#/components/schemas/Order"),
    ("rows", .ref "#/components/schemas/Rows")]⟩ }

/-- The report fails, and the declarations and names of the orders are kept. -/
theorem synthesize_withSchema_reportOnOrders :
    let config : Config := { includeOperations := false }
    (orders.synthesize config).declarations.map Declaration.name = ["Customer", "OrderItem", "Order"] ∧
      ((orders.withSchema "Report" reportOnOrders).synthesize config).names.get? "Report" = none ∧
      (orders.synthesize config).declarations.Sublist
        ((orders.withSchema "Report" reportOnOrders).synthesize config).declarations ∧
      ∀ other name, (orders.synthesize config).names.get? other = some name →
        ((orders.withSchema "Report" reportOnOrders).synthesize config).names.get? other =
          some name := by
  have unreferenced : ∀ other,
      ¬(orders.context { includeOperations := false }).Refers other "Report" := by
    rintro other ⟨node, found, refers⟩
    have unlisted : ∀ entry ∈ (orders.context { includeOperations := false }).model.nodes.entries,
        "Report" ∉ entry.2.references := by decide
    exact unlisted _ (Table.mem_entries_of_get? found) refers.mem_references
  have emitted : ((orders.withSchema "Report" reportOnOrders).context
      { includeOperations := false }).emitted? "Report" = some "Report" := by decide
  exact ⟨by decide +kernel, by decide +kernel,
    synthesize_withSchema orders { includeOperations := false } rfl reportOnOrders (by decide)
      unreferenced emitted (Option.isNone_iff_eq_none.mp (by decide +kernel))⟩

end Document

end ApiTypes

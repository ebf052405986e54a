import Mathlib.Data.List.Perm.Subperm
import ApiTypes.Proofs.Finish
import ApiTypes.Proofs.Synthesis.Accounting

/-!
What synthesis puts out. Nothing that is emitted mentions anything that is not, and there is exactly one
error for every component schema and every operation that is left out.
-/

namespace ApiTypes

open scoped Classical in
/-- What finishing a workspace keeps, and what it reports about the rest. -/
structure Workspace.FinishesExactly (workspace : Workspace) (operations : List OperationBinding)
    (lowering : List Diagnostic) (output : Output) : Prop where
  /-- The supported names are the largest set of declared names that mention only each other. -/
  greatest :
    IsGreatest { names | workspace.registry.IsClosed names } workspace.registry.supported
  /-- The returned operations are those of which every mentioned name is supported. -/
  operations_eq : output.operations = operations.filter fun operation =>
    decide (workspace.registry.Stands operation)
  /-- The returned declarations are the supported ones that something leads to. -/
  declarations_eq : output.declarations = workspace.registry.declarations.filter fun declaration =>
    decide (declaration.name ∈ workspace.registry.supported ∧
      (declaration.origin.isComponent = true ∨
        (∃ component ∈ workspace.registry.declarations, component.origin.isComponent = true ∧
          component.name ∈ workspace.registry.supported ∧
          Relation.ReflTransGen workspace.registry.Mentions component.name declaration.name) ∨
        ∃ operation ∈ output.operations, ∃ mentioned ∈ operation.mentions,
          Relation.ReflTransGen workspace.registry.Mentions mentioned declaration.name))
  /-- Every component schema whose declaration is not supported is reported once. -/
  diagnostics_eq : ∃ lost losses omissions,
    lost.Perm (workspace.registry.declarations.filter fun declaration =>
      declaration.origin.isComponent &&
        decide (declaration.name ∉ workspace.registry.supported)) ∧
    List.Forall₂ workspace.registry.ReportsLoss lost losses ∧
    List.Forall₂ workspace.registry.ReportsOmission
      (operations.filter fun operation => decide (¬workspace.registry.Stands operation))
      omissions ∧
    output.diagnostics = lowering ++ (workspace.diagnostics ++ losses ++ omissions)
  /-- Whatever is mentioned by something that is returned has a declaration that is returned. -/
  closed : ∀ name,
    ((∃ declaration ∈ output.declarations, name ∈ declaration.mentions) ∨
      ∃ operation ∈ output.operations, name ∈ operation.mentions) →
    ∃ declaration ∈ output.declarations, declaration.name = name

/-- Whatever synthesis has done, finishing keeps what is supported and used, and nothing else. -/
theorem finish_keeps_supported {context : Context} {workspace : Workspace}
    (reachable : Reachable context workspace) (version : SpecVersion)
    (operations : List OperationBinding) (lowering : List Diagnostic) :
    workspace.FinishesExactly operations lowering
      (workspace.finish version operations lowering) := by
  classical
  have wellFormed := reachable.consistent.wellFormed
  have operations_eq := Workspace.operations_finish wellFormed version operations lowering
  have declarations_eq := Workspace.declarations_finish wellFormed version operations lowering
  have isOperation : ∀ operation,
      operation ∈ (workspace.finish version operations lowering).operations ↔
        operation ∈ operations ∧ workspace.registry.Stands operation := by
    intro operation
    rw [operations_eq, List.mem_filter, decide_eq_true_iff]
  -- A kept name is a supported one that a component schema or an operation leads to.
  have kept_iff : ∀ declaration ∈ workspace.registry.declarations,
      (workspace.registry.Kept operations declaration.name ↔
        declaration.name ∈ workspace.registry.supported ∧
          (declaration.origin.isComponent = true ∨
            (∃ component ∈ workspace.registry.declarations, component.origin.isComponent = true ∧
              component.name ∈ workspace.registry.supported ∧
              Relation.ReflTransGen workspace.registry.Mentions component.name declaration.name) ∨
            ∃ operation ∈ (workspace.finish version operations lowering).operations,
              ∃ mentioned ∈ operation.mentions,
                Relation.ReflTransGen workspace.registry.Mentions mentioned declaration.name)) := by
    intro declaration isDeclaration
    constructor
    · intro kept
      refine ⟨kept.supported, ?_⟩
      obtain ⟨root, isRoot, leads⟩ := kept
      cases isRoot with
      | component found isComponent supported =>
        rename_i component
        have sameName := wellFormed.name_eq found
        have isListed := (wellFormed.mem_declarations_iff component).mpr (sameName.symm ▸ found)
        exact .inr (.inl ⟨component, isListed, isComponent, sameName.symm ▸ supported,
          sameName.symm ▸ leads⟩)
      | mention isBound stands isMentioned =>
        exact .inr (.inr ⟨_, (isOperation _).mpr ⟨isBound, stands⟩, root, isMentioned, leads⟩)
    · rintro ⟨supported, isComponent | ⟨component, isListed, isComponent, isSupported, leads⟩ |
        ⟨operation, isReturned, mentioned, isMentioned, leads⟩⟩
      · have found := (wellFormed.mem_declarations_iff declaration).mp isDeclaration
        exact ⟨_, .component found isComponent supported, .refl⟩
      · have found := (wellFormed.mem_declarations_iff component).mp isListed
        exact ⟨_, .component found isComponent isSupported, leads⟩
      · obtain ⟨isBound, stands⟩ := (isOperation operation).mp isReturned
        exact ⟨_, .mention isBound stands isMentioned, leads⟩
  have isReturned : ∀ declaration,
      declaration ∈ (workspace.finish version operations lowering).declarations ↔
        declaration ∈ workspace.registry.declarations ∧
          workspace.registry.Kept operations declaration.name := by
    intro declaration
    rw [declarations_eq, List.mem_filter, decide_eq_true_iff]
  -- A kept name has a declaration, which is returned.
  have returned_of_kept : ∀ name, workspace.registry.Kept operations name →
      ∃ declaration ∈ (workspace.finish version operations lowering).declarations,
        declaration.name = name := by
    intro name kept
    obtain ⟨declaration, found, _⟩ := workspace.registry.isClosed_supported name kept.supported
    have sameName := wellFormed.name_eq found
    have isListed := (wellFormed.mem_declarations_iff declaration).mpr (sameName.symm ▸ found)
    exact ⟨declaration, (isReturned _).mpr ⟨isListed, sameName.symm ▸ kept⟩, sameName⟩
  exact {
    greatest := workspace.registry.isGreatest_supported
    operations_eq := operations_eq
    declarations_eq := by
      rw [declarations_eq]
      refine List.filter_congr fun declaration isDeclaration => ?_
      rw [Bool.eq_iff_iff, decide_eq_true_iff, decide_eq_true_iff]
      exact kept_iff declaration isDeclaration
    diagnostics_eq := Workspace.diagnostics_finish wellFormed version operations lowering
    closed := by
      rintro name (⟨declaration, isEmitted, isMentioned⟩ | ⟨operation, isEmitted, isMentioned⟩)
      · obtain ⟨isDeclaration, kept⟩ := (isReturned declaration).mp isEmitted
        have found := (wellFormed.mem_declarations_iff declaration).mp isDeclaration
        exact returned_of_kept name (kept.of_mentions ⟨declaration, found, isMentioned⟩)
      · obtain ⟨isBound, stands⟩ := (isOperation operation).mp isEmitted
        exact returned_of_kept name ⟨name, .mention isBound stands isMentioned, .refl⟩ }

/-- A schema that fails after another one has been synthesized that mentions it and nothing else. -/
def failingParent : Context where
  model :=
    { version := .v31
      nodes :=
        ⟨[("Parent", ⟨.object [⟨"child", true, .reference "Child"⟩,
            ⟨"other", true, .reference "Missing"⟩] none, {}⟩),
          ("Child", ⟨.object [⟨"parent", true, .reference "Parent"⟩] none, {}⟩)]⟩ }
  config := {}

/-- The child is declared and supported by nothing, so finishing withdraws it. -/
theorem finish_keeps_supported_failingParent :
    let workspace :=
      ((Synthesis.enterAll failingParent).run (Workspace.ofContext failingParent)).2
    Reachable failingParent workspace ∧ workspace.registry.order = ["Child"] ∧
      (workspace.finish .v31 [] []).declarations.length = 0 ∧
      workspace.FinishesExactly [] [] (workspace.finish .v31 [] []) := by
  have reachable := Reachable.initial.runs
    (Synthesis.runs_enterAll (Consistent.ofContext failingParent)).1
  exact ⟨reachable, by decide +kernel, by decide +kernel,
    finish_keeps_supported reachable .v31 [] []⟩

/-- The component schemas of a document as synthesis sees them, with its settings. -/
def Document.context (document : Document) (config : Config) : Context :=
  ⟨(SchemaModel.ofDocument document).collect.1, config⟩

/-- If each of some items has a diagnostic that is an error, there are as many errors as items. -/
theorem countP_isError {α : Type} {relation : α → Diagnostic → Prop} {items : List α}
    {diagnostics : List Diagnostic} (related : List.Forall₂ relation items diagnostics)
    (isError : ∀ item diagnostic, relation item diagnostic → diagnostic.isError = true) :
    diagnostics.countP Diagnostic.isError = items.length := by
  induction related with
  | nil => rfl
  | cons related _ ih => simp [isError _ _ related, ih]

namespace Document

variable (document : Document) (config : Config)

/-- The component schemas of the context are those of the document. -/
theorem names_context : (document.context config).model.names = document.schemas.keys :=
  SchemaModel.names_ofDocument document

/-- Where the operations stand that synthesis has to bind. -/
def wantedKeys : List (String × Method) :=
  if config.includeOperations then document.operationKeys else []

/-- The workspace in which all component schemas have been synthesized. -/
def entered : Workspace :=
  ((Synthesis.enterAll (document.context config)).run
    (Workspace.ofContext (document.context config))).2

/-- The operations that are bound before the workspace is finished. -/
def bound : List OperationBinding :=
  ((document.bindAll (document.context config)).run
    (Workspace.ofContext (document.context config))).1

/-- The workspace that is finished in the end. -/
def unfinished : Workspace :=
  ((document.bindAll (document.context config)).run
    (Workspace.ofContext (document.context config))).2

/-- Synthesis finishes the workspace in which everything has been bound. -/
theorem synthesize_eq : document.synthesize config =
    (document.unfinished config).finish (document.context config).model.version
      (document.bound config) (SchemaModel.ofDocument document).collect.2 := rfl

/-- All component schemas are synthesized in one run. -/
theorem runs_entered :
    Runs (document.context config) (Workspace.ofContext (document.context config))
        (document.entered config) ∧
      (document.entered config).IsSettled (document.context config) :=
  Synthesis.runs_enterAll (Consistent.ofContext _)

/-- Operations are bound in the workspace in which all component schemas have been synthesized. -/
theorem run_bindAll :
    (document.bindAll (document.context config)).run
      (Workspace.ofContext (document.context config)) =
        if config.includeOperations = true then
          (Synthesis.bindPaths (document.context config) (document.components.getD {})
            document.paths.entries).run (document.entered config)
        else ([], document.entered config) := by
  have unfolded : (document.bindAll (document.context config)).run
      (Workspace.ofContext (document.context config)) =
        (if config.includeOperations = true then
          Synthesis.bindPaths (document.context config) (document.components.getD {})
            document.paths.entries
        else return [] : StateM Workspace (List OperationBinding)).run
          (document.entered config) := rfl
  rw [unfolded]
  split <;> rfl

/-- The wanted operations are bound after all component schemas have been synthesized. -/
theorem binds_unfinished :
    Synthesis.Binds (document.context config) (document.entered config)
      (document.wantedKeys config) (document.bound config) (document.unfinished config) := by
  have ⟨runs, settled⟩ := document.runs_entered config
  have reachable : Reachable (document.context config) (document.entered config) :=
    Reachable.initial.runs runs
  unfold bound unfinished wantedKeys
  rw [run_bindAll]
  split
  · exact Synthesis.binds_bindPaths _ reachable settled
  · exact Synthesis.Binds.nil reachable

/-- The workspace that is finished in the end is consistent. -/
theorem consistent_unfinished :
    Consistent (document.context config) (document.unfinished config) :=
  (document.binds_unfinished config).reachable.consistent

/-- In the end every component schema is registered or has failed. -/
theorem state_unfinished {schema : String} (isSchema : schema ∈ document.schemas.keys) :
    (document.unfinished config).resolver.state schema = .registered ∨
      (document.unfinished config).resolver.state schema = .failed := by
  have ⟨runs, settled⟩ := document.runs_entered config
  have isName : schema ∈ (document.context config).model.names := by
    rwa [document.names_context config]
  have started := settled schema isName
  -- No run leaves a schema in progress that was pending before.
  have notResolving := (runs.consistent (Consistent.ofContext _)).2.of_pending
    (Workspace.state_ofContext _ schema)
  rw [(document.binds_unfinished config).state_eq started]
  cases state : (document.entered config).resolver.state schema with
  | pending => exact absurd state started
  | resolving => exact absurd state notResolving
  | registered => exact .inl rfl
  | failed => exact .inr rfl

/-- Before finishing there is one error for every failed schema and every operation not bound. -/
theorem errors_unfinished :
    (document.unfinished config).errors + (document.bound config).length =
      (document.unfinished config).failures document.schemas.keys.dedup +
        (document.wantedKeys config).length := by
  -- Entering all schemas leaves one error for each that failed, and binding one for each operation.
  have ⟨runs, settled⟩ := document.runs_entered config
  have binds := document.binds_unfinished config
  have reserves := Workspace.reserves_ofContext (document.context config)
  have accounts := runs.errors_eq document.schemas.keys.nodup_dedup
    (fun schema isName => List.mem_dedup.mpr (by rwa [document.names_context config] at isName))
    (Consistent.ofContext _)
  have no_errors : (Workspace.ofContext (document.context config)).errors = 0 := by
    simp [Workspace.errors, reserves.diagnostics_eq]
  have no_failures : (Workspace.ofContext (document.context config)).failures
      document.schemas.keys.dedup = 0 :=
    List.countP_eq_zero.mpr fun schema _ => by simp [Workspace.state_ofContext]
  -- No schema is pending once all have been entered, so binding operations changes no state.
  have same_failures : (document.unfinished config).failures document.schemas.keys.dedup =
      (document.entered config).failures document.schemas.keys.dedup :=
    List.countP_congr fun schema isSchema => by
      have isName : schema ∈ (document.context config).model.names := by
        rw [document.names_context config]
        exact List.mem_dedup.mp isSchema
      rw [binds.state_eq (settled schema isName)]
  have bound_errors := binds.errors
  omega

/-- A component schema is emitted under the name held for it exactly if that is supported. -/
theorem names_synthesize_get?_iff (schema name : String) :
    (document.synthesize config).names.get? schema = some name ↔
      (document.context config).emitted? schema = some name ∧
        name ∈ (document.unfinished config).registry.supported := by
  classical
  have consistent := document.consistent_unfinished config
  have reserves := Workspace.reserves_ofContext (document.context config)
  rw [synthesize_eq, Workspace.names_finish consistent.wellFormed, Table.get?_filter,
    consistent.components_eq, reserves.emitted_eq, Option.filter_eq_some_iff, decide_eq_true_iff]
  · refine and_congr_right fun emitted => ⟨Registry.Kept.supported, fun supported => ?_⟩
    -- The declaration of a component schema is kept for its own sake.
    obtain ⟨declaration, found, _⟩ := Registry.isClosed_supported _ name supported
    have origin := (consistent.registered_of_declared emitted found).1
    exact ⟨name, .component found (by simp [origin, Origin.isComponent]) supported, .refl⟩
  · rw [consistent.components_eq]
    exact reserves.nodup_components

/-- A name that is supported and held for a component schema is that of a registered one. -/
theorem registered_of_supported {schema name : String}
    (emitted : (document.context config).emitted? schema = some name)
    (supported : name ∈ (document.unfinished config).registry.supported) :
    ∃ declaration, (document.unfinished config).registry.get? name = some declaration ∧
      declaration.origin = .component schema ∧
      (document.unfinished config).resolver.state schema = .registered := by
  obtain ⟨declaration, found, _⟩ := Registry.isClosed_supported _ name supported
  have ⟨origin, registered⟩ :=
    (document.consistent_unfinished config).registered_of_declared emitted found
  exact ⟨declaration, found, origin, registered⟩

/-- The declarations that are emitted are those that are kept. -/
theorem mem_declarations_synthesize_iff (declaration : Declaration) :
    declaration ∈ (document.synthesize config).declarations ↔
      (document.unfinished config).registry.get? declaration.name = some declaration ∧
        (document.unfinished config).registry.Kept (document.bound config) declaration.name := by
  classical
  have wellFormed := (document.consistent_unfinished config).wellFormed
  rw [synthesize_eq, Workspace.declarations_finish wellFormed, List.mem_filter,
    decide_eq_true_iff, wellFormed.mem_declarations_iff]

/-- An emitted component schema has exactly one declaration, under its name. -/
theorem declarations_of_emitted {schema name : String}
    (emitted : (document.synthesize config).names.get? schema = some name) :
    ∃ declaration, declaration.name = name ∧ declaration.origin = .component schema ∧
      (document.synthesize config).declarations.filter (fun declaration =>
        declaration.origin = .component schema) = [declaration] := by
  classical
  have consistent := document.consistent_unfinished config
  obtain ⟨held, supported⟩ := (document.names_synthesize_get?_iff config schema name).mp emitted
  obtain ⟨declaration, found, origin, _⟩ := document.registered_of_supported config held supported
  have sameName := consistent.wellFormed.name_eq found
  refine ⟨declaration, sameName, origin, ?_⟩
  have distinct : (document.synthesize config).declarations.Nodup := by
    rw [synthesize_eq, Workspace.declarations_finish consistent.wellFormed]
    exact consistent.wellFormed.nodup_declarations.filter _
  -- Any declaration for the schema stands under the name held for it.
  refine List.perm_singleton.mp ((List.perm_ext_iff_of_nodup (distinct.filter _) (by simp)).mpr
    fun other => ?_)
  rw [List.mem_filter, decide_eq_true_iff, List.mem_singleton, mem_declarations_synthesize_iff]
  constructor
  · rintro ⟨⟨isFound, _⟩, isComponent⟩
    have alsoHeld := (consistent.of_component isFound isComponent).1
    cases held.symm.trans alsoHeld
    exact Option.some.inj (isFound.symm.trans found)
  · rintro rfl
    rw [sameName]
    exact ⟨⟨found, name, .component found (by simp [origin, Origin.isComponent]) supported, .refl⟩,
      origin⟩

/-- A component schema that is not emitted has no declaration. -/
theorem declarations_of_not_emitted {schema : String}
    (absent : (document.synthesize config).names.get? schema = none) :
    ∀ declaration ∈ (document.synthesize config).declarations,
      declaration.origin ≠ .component schema := by
  intro declaration isEmitted origin
  obtain ⟨found, kept⟩ := (document.mem_declarations_synthesize_iff config declaration).mp isEmitted
  have held := ((document.consistent_unfinished config).of_component found origin).1
  have emitted := (document.names_synthesize_get?_iff config schema declaration.name).mpr
    ⟨held, kept.supported⟩
  simp [absent] at emitted

open scoped Classical in
/-- As many declarations of component schemas are withdrawn as registered schemas are not supported. -/
theorem length_withdrawn :
    ((document.unfinished config).registry.declarations.filter fun declaration =>
      declaration.origin.isComponent &&
        decide (declaration.name ∉ (document.unfinished config).registry.supported)).length =
      document.schemas.keys.dedup.countP fun schema =>
        decide ((document.synthesize config).names.get? schema = none) &&
          decide ((document.unfinished config).resolver.state schema = .registered) := by
  have consistent := document.consistent_unfinished config
  let typeName (schema : String) : String :=
    ((document.context config).emitted? schema).getD schema
  have emitted_eq : ∀ schema ∈ document.schemas.keys,
      (document.context config).emitted? schema = some (typeName schema) := by
    intro schema isSchema
    obtain ⟨name, emitted⟩ := ((document.context config).exists_emitted?_iff schema).mpr
      (by rwa [document.names_context config])
    simp [typeName, emitted]
  -- Both lists have the same type names, none of them twice.
  rw [List.countP_eq_length_filter, ← List.length_map Declaration.name,
    ← @List.length_map _ _ (List.filter _ document.schemas.keys.dedup) typeName]
  refine ((List.perm_ext_iff_of_nodup ?_ ?_).mpr fun name => ?_).length_eq
  · have names : (document.unfinished config).registry.declarations.map Declaration.name =
        (document.unfinished config).registry.order := consistent.wellFormed.map_name_declarations
    exact (names ▸ consistent.wellFormed.nodup_order : List.Nodup _).sublist
      (List.filter_sublist.map Declaration.name)
  · refine (document.schemas.keys.nodup_dedup.filter _).map_on fun schema isFirst other isSecond same => ?_
    have first := emitted_eq schema (List.mem_dedup.mp (List.mem_filter.mp isFirst).1)
    have second := emitted_eq other (List.mem_dedup.mp (List.mem_filter.mp isSecond).1)
    exact Context.emitted?_injective first (same ▸ second)
  · simp only [List.mem_map, List.mem_filter, Bool.and_eq_true, decide_eq_true_iff,
      List.mem_dedup, consistent.wellFormed.mem_declarations_iff]
    constructor
    · rintro ⟨declaration, ⟨found, isComponent, unsupported⟩, rfl⟩
      cases origin : declaration.origin with
      | inline path => simp [origin, Origin.isComponent] at isComponent
      | component schema =>
        obtain ⟨held, registered⟩ := consistent.of_component found origin
        have isSchema : schema ∈ document.schemas.keys := by
          rw [← document.names_context config, ← Context.exists_emitted?_iff]
          exact ⟨_, held⟩
        have same := Option.some.inj (held.symm.trans (emitted_eq schema isSchema))
        refine ⟨schema, ⟨isSchema, ?_, registered⟩, same.symm⟩
        refine Option.eq_none_iff_forall_ne_some.mpr fun name isName => unsupported ?_
        obtain ⟨alsoHeld, supported⟩ :=
          (document.names_synthesize_get?_iff config schema name).mp isName
        cases held.symm.trans alsoHeld
        exact supported
    · rintro ⟨schema, ⟨isSchema, absent, registered⟩, rfl⟩
      obtain ⟨name, declaration, held, found, origin⟩ := consistent.registered registered
      cases held.symm.trans (emitted_eq schema isSchema)
      have sameName := consistent.wellFormed.name_eq found
      refine ⟨declaration, ⟨sameName.symm ▸ found, by simp [origin, Origin.isComponent], ?_⟩, sameName⟩
      rw [sameName]
      intro supported
      have isName := (document.names_synthesize_get?_iff config schema (typeName schema)).mpr
        ⟨held, supported⟩
      simp [absent] at isName

/-- The schemas that are not emitted are the failed ones, and registered ones that are withdrawn. -/
theorem count_not_emitted :
    (document.schemas.keys.dedup.filter fun schema =>
      (document.synthesize config).names.get? schema = none).length =
      (document.unfinished config).failures document.schemas.keys.dedup +
        document.schemas.keys.dedup.countP fun schema =>
          decide ((document.synthesize config).names.get? schema = none) &&
            decide ((document.unfinished config).resolver.state schema = .registered) := by
  -- Among the schemas that are not emitted, those that are not registered have failed.
  rw [← List.countP_eq_length_filter, Workspace.failures, List.countP_eq_countP_filter_add _ _
    fun schema => decide ((document.unfinished config).resolver.state schema = .failed),
    List.countP_filter, List.countP_filter]
  congr 1
  · refine List.countP_congr fun schema _ => ?_
    simp only [Bool.and_eq_true, decide_eq_true_iff, and_iff_right_iff_imp]
    intro failed
    refine Option.eq_none_iff_forall_ne_some.mpr fun name isName => ?_
    obtain ⟨held, supported⟩ :=
      (document.names_synthesize_get?_iff config schema name).mp isName
    obtain ⟨_, _, _, registered⟩ := document.registered_of_supported config held supported
    simp [failed] at registered
  · refine List.countP_congr fun schema isSchema => ?_
    rcases document.state_unfinished config (List.mem_dedup.mp isSchema) with state | state <;>
      simp [state]

/-- The returned operations stand at some of the places where wanted operations do. -/
theorem sublist_operations :
    ((document.synthesize config).operations.map OperationBinding.key).Sublist
      (document.wantedKeys config) := by
  classical
  have wellFormed := (document.consistent_unfinished config).wellFormed
  rw [synthesize_eq, Workspace.operations_finish wellFormed]
  exact (List.filter_sublist.map _).trans (document.binds_unfinished config).sublist

/-- There is one error for every schema that is not emitted and every operation that is missing. -/
theorem errors_synthesize :
    (document.synthesize config).diagnostics.countP Diagnostic.isError =
      (document.schemas.keys.dedup.filter fun schema =>
        (document.synthesize config).names.get? schema = none).length +
      ((document.wantedKeys config).diff
        ((document.synthesize config).operations.map OperationBinding.key)).length := by
  classical
  have wellFormed := (document.consistent_unfinished config).wellFormed
  obtain ⟨lost, losses, omissions, isLost, areLosses, areOmissions, diagnostics_eq⟩ :=
    Workspace.diagnostics_finish wellFormed (document.context config).model.version
      (document.bound config) (SchemaModel.ofDocument document).collect.2
  have no_errors : (SchemaModel.ofDocument document).collect.2.countP Diagnostic.isError = 0 :=
    List.countP_eq_zero.mpr fun diagnostic isMember => by
      simp [Diagnostic.isError_of_isOfLowering
        ((SchemaModel.preliminary_ofDocument document).collect diagnostic isMember)]
  have loss_errors : losses.countP Diagnostic.isError = lost.length :=
    countP_isError areLosses fun declaration diagnostic isLoss => by
      obtain ⟨_, _, _, _, _, rfl⟩ := isLoss
      rfl
  have omission_errors := countP_isError areOmissions fun operation diagnostic isOmission => by
    obtain ⟨_, _, _, rfl⟩ := isOmission
    rfl
  have lost_length := isLost.length_eq.trans (document.length_withdrawn config)
  have unfinished_errors := document.errors_unfinished config
  have not_emitted := document.count_not_emitted config
  -- The bound operations are those that are returned and those that do not stand.
  have stands_length := List.length_eq_length_filter_add (l := document.bound config)
    fun operation => decide ((document.unfinished config).registry.Stands operation)
  have operations_eq : (document.synthesize config).operations =
      (document.bound config).filter fun operation =>
        decide ((document.unfinished config).registry.Stands operation) := by
    rw [synthesize_eq, Workspace.operations_finish wellFormed]
  have missing : ((document.synthesize config).operations.map OperationBinding.key).length +
      ((document.wantedKeys config).diff
        ((document.synthesize config).operations.map OperationBinding.key)).length =
      (document.wantedKeys config).length := by
    have split := (List.subperm_append_diff_self_of_count_le fun key _ =>
      (document.sublist_operations config).count_le key).length_eq
    simpa [List.length_append] using split
  have reported : (document.synthesize config).diagnostics.countP Diagnostic.isError =
      (document.unfinished config).errors + lost.length +
        ((document.bound config).filter fun operation =>
          decide (¬(document.unfinished config).registry.Stands operation)).length := by
    rw [synthesize_eq, diagnostics_eq, List.countP_append, List.countP_append, List.countP_append,
      no_errors, loss_errors, omission_errors, Nat.zero_add]
    rfl
  simp only [decide_not] at reported
  rw [List.length_map] at missing
  rw [← operations_eq] at stands_length
  omega

/-- What the output of synthesis says about the schemas and the operations of a document. -/
structure AccountedFor (output : Output) : Prop where
  /-- A component schema is emitted with one declaration under the name reserved for it, or not. -/
  schemas : ∀ schema ∈ document.schemas.keys,
    (∃ name declaration, output.names.get? schema = some name ∧
      (Workspace.ofContext (document.context config)).resolver.emitted.get? schema = some name ∧
      declaration.name = name ∧
      output.declarations.filter (fun declaration => declaration.origin = .component schema) =
        [declaration]) ∨
    (output.names.get? schema = none ∧
      ∀ declaration ∈ output.declarations, declaration.origin ≠ .component schema)
  /-- Nothing but component schemas of the document has a name, and none has two. -/
  keys : output.names.keys.Nodup ∧ output.names.keys ⊆ document.schemas.keys
  /-- No two component schemas share a name. -/
  injective : ∀ schema other name, output.names.get? schema = some name →
    output.names.get? other = some name → schema = other
  /-- The returned operations stand, in order, where operations of the document do. -/
  operations : (output.operations.map OperationBinding.key).Sublist
    (if config.includeOperations then document.operationKeys else [])
  /-- There is one error for each schema and each wanted operation that is left out. -/
  errors : output.diagnostics.countP Diagnostic.isError =
    (document.schemas.keys.dedup.filter fun schema => output.names.get? schema = none).length +
      (if config.includeOperations then
        (document.operationKeys.diff (output.operations.map OperationBinding.key)).length
      else 0)
  /-- There are errors exactly if something is left out. -/
  hasErrors : output.hasErrors = true ↔
    (∃ schema ∈ document.schemas.keys, output.names.get? schema = none) ∨
      config.includeOperations = true ∧
        ∃ key, key ∈ document.operationKeys.diff (output.operations.map OperationBinding.key)

/-- Synthesis reports exactly one error for everything that it leaves out. -/
theorem synthesize_accountedFor : document.AccountedFor config (document.synthesize config) := by
  classical
  have consistent := document.consistent_unfinished config
  have errors : (document.synthesize config).diagnostics.countP Diagnostic.isError =
      (document.schemas.keys.dedup.filter fun schema =>
        (document.synthesize config).names.get? schema = none).length +
      (if config.includeOperations then (document.operationKeys.diff
        ((document.synthesize config).operations.map OperationBinding.key)).length else 0) := by
    rw [document.errors_synthesize config, wantedKeys]
    split <;> simp
  refine {
    schemas := fun schema _ => ?_
    keys := ⟨?_, fun schema isKey => ?_⟩
    injective := fun schema other name first second => ?_
    operations := document.sublist_operations config
    errors := errors
    hasErrors := ?_ }
  · cases emitted : (document.synthesize config).names.get? schema with
    | none => exact .inr ⟨rfl, document.declarations_of_not_emitted config emitted⟩
    | some name =>
      obtain ⟨declaration, sameName, _, isOnly⟩ := document.declarations_of_emitted config emitted
      have held := ((document.names_synthesize_get?_iff config schema name).mp emitted).1
      exact .inl ⟨name, declaration, rfl, held, sameName, isOnly⟩
  · rw [synthesize_eq, Workspace.names_finish consistent.wellFormed, consistent.components_eq]
    exact (Workspace.reserves_ofContext _).nodup_components.sublist (Table.keys_filter_sublist _ _)
  · obtain ⟨name, isName⟩ := (Table.mem_keys_iff _ schema).mp isKey
    have held := ((document.names_synthesize_get?_iff config schema name).mp isName).1
    rw [← document.names_context config, ← Context.exists_emitted?_iff]
    exact ⟨name, held⟩
  · exact Context.emitted?_injective
      ((document.names_synthesize_get?_iff config schema name).mp first).1
      ((document.names_synthesize_get?_iff config other name).mp second).1
  · -- Some diagnostic is an error exactly if the number of errors is not zero.
    rw [Output.hasErrors, List.any_eq_true, ← List.countP_pos_iff, errors]
    have schemas_pos : 0 < (document.schemas.keys.dedup.filter fun schema =>
        (document.synthesize config).names.get? schema = none).length ↔
        ∃ schema ∈ document.schemas.keys, (document.synthesize config).names.get? schema = none := by
      simp [List.length_pos_iff_exists_mem]
    have operations_pos : 0 < (if config.includeOperations then (document.operationKeys.diff
        ((document.synthesize config).operations.map OperationBinding.key)).length else 0) ↔
        config.includeOperations = true ∧ ∃ key, key ∈ document.operationKeys.diff
          ((document.synthesize config).operations.map OperationBinding.key) := by
      split <;> simp_all [List.length_pos_iff_exists_mem]
    rw [← schemas_pos, ← operations_pos]
    omega

end Document

end ApiTypes

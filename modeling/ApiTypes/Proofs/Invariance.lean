import ApiTypes.Proofs.Emission
import ApiTypes.Proofs.Extension
import ApiTypes.Proofs.Synthesis.Agreement
import ApiTypes.Proofs.Synthesis.Entries
import ApiTypes.Proofs.Synthesis.OperationTraversal

/-!
Invariants of synthesis. What every step keeps, whatever is reported besides, holds once all component
schemas have been synthesized, and after all operations have been bound.
-/

namespace ApiTypes

namespace Workspace

/-- No component schema is in progress. -/
def IsIdle (workspace : Workspace) : Prop := ∀ schema, workspace.resolver.state schema ≠ .resolving

variable {context : Context} {first last : Workspace}

/-- While nothing is in progress, every task is prepared. -/
theorem IsIdle.prepared (idle : first.IsIdle) (task : Task) : Prepared context [] task first :=
  ⟨by simp, by simp, fun schema isResolving => absurd isResolving (idle schema)⟩

/-- Nothing is in progress after a run if nothing was before. -/
theorem IsIdle.grow (idle : first.IsIdle) (grows : Grows first last) : last.IsIdle :=
  fun schema isResolving => idle schema (grows.was_resolving isResolving)

end Workspace

/-- An invariant of the steps of synthesis that no report can break. -/
structure Invariance (context : Context) (holds : Workspace → Prop) : Prop
    extends StepInvariant context holds where
  alike : ∀ {one other : Workspace}, holds one → one.Alike other → holds other

namespace Synthesis

variable {context : Context} {holds : Workspace → Prop}

/-- Binding an operation keeps an invariant. -/
theorem bindingTraversal_invariance (invariance : Invariance context holds) :
    BindingTraversal context (fun _ => True)
      (Maintains context [] (fun workspace => workspace.IsIdle ∧ holds workspace) fun _ _ => True) := by
  refine bindingTraversal_maintains (fun _ held => ⟨held.1, invariance.alike held.2 ⟨rfl, rfl⟩⟩)
    fun scope _ _ first last result consistent started _ held ends => ?_
  have comes := ((adequate_within context false [] []).walkFollows _).expression scope 0 _ _ _
    consistent started ends
  have steps := comes.steps consistent
  have ⟨after, grows⟩ := steps.advances consistent
  have kept := steps.preserves invariance.toStepInvariant consistent (held.1.prepared _) held.2
  exact ⟨after, grows, ⟨held.1.grow grows, kept⟩, fun _ _ => trivial⟩

end Synthesis

namespace Document

variable (document : Document) (config : Config) {holds : Workspace → Prop}

/-- The workspace with all component schemas is consistent. -/
theorem consistent_entered : Consistent (document.context config) (document.entered config) :=
  ((document.runs_entered config).1.consistent (Consistent.ofContext _)).1

/-- What every step keeps holds once all component schemas are synthesized if it does in the beginning. -/
theorem holds_entered (invariant : StepInvariant (document.context config) holds)
    (initial : holds (Workspace.ofContext (document.context config))) :
    (document.entered config).IsIdle ∧ holds (document.entered config) := by
  refine @Synthesis.enterAll_preserves _ (fun workspace => workspace.IsIdle ∧ holds workspace)
    (fun name first consistent held => ?_) _ (Consistent.ofContext _)
    ⟨fun schema => by simp [Workspace.state_ofContext], initial⟩
  have entry := Synthesis.entry_enter (document.context config) name first
  exact ⟨held.1.grow (entry.advances consistent).2,
    entry.preserves invariant consistent (held.1.prepared _) held.2⟩

/-- What holds once all component schemas are synthesized holds when the operations are bound as well. -/
theorem holds_unfinished (invariance : Invariance (document.context config) holds)
    (entered : (document.entered config).IsIdle ∧ holds (document.entered config)) :
    Grows (document.entered config) (document.unfinished config) ∧
      holds (document.unfinished config) := by
  unfold unfinished
  rw [run_bindAll]
  split
  · exact And.imp_right And.right (Synthesis.bindPaths_maintains
      (Synthesis.bindingTraversal_invariance invariance)
      (fun _ held => ⟨held.1, invariance.alike held.2 ⟨rfl, rfl⟩⟩) (fun _ _ => trivial)
      (fun _ _ _ _ => trivial) (document.consistent_entered config) entered)
  · exact ⟨.refl _, entered.2⟩

end Document

/-- Whatever stays declared or started stays known. -/
theorem Workspace.Knows.mono {context : Context} {first last : Workspace} {name : String}
    (knows : first.Knows context name)
    (declared : first.registry.isDeclared name = true → last.registry.isDeclared name = true)
    (started : ∀ schema, first.resolver.state schema ≠ .pending →
      last.resolver.state schema ≠ .pending) : last.Knows context name :=
  knows.imp declared fun ⟨schema, emitted, isStarted⟩ => ⟨schema, emitted, started schema isStarted⟩

/-- What a task has grounded is known. -/
theorem Grounded.knows {context : Context} {task : Task} {workspace : Workspace} {name : String}
    (grounded : Grounded context task workspace name) : workspace.Knows context name :=
  grounded.isDeclared_or.imp_right fun ⟨schema, emitted, _, ready⟩ =>
    ⟨schema, emitted, by rcases ready with state | state <;> simp [state]⟩

/-- Every name that a declaration mentions is known. -/
def Workspace.KnowsMentions (context : Context) (workspace : Workspace) : Prop :=
  ∀ name mentioned, workspace.registry.Mentions name mentioned → workspace.Knows context mentioned

/-- A declaration may be added if all that it mentions is known. -/
theorem Workspace.KnowsMentions.declare {context : Context} {first last : Workspace}
    (known : first.KnowsMentions context) {declaration : Declaration}
    (isDeclared : last.registry = first.registry.declare declaration)
    (started : ∀ schema, first.resolver.state schema ≠ .pending →
      last.resolver.state schema ≠ .pending)
    (mentioned : ∀ mention ∈ declaration.mentions, first.Knows context mention) :
    last.KnowsMentions context := by
  have stays {name : String} (knows : first.Knows context name) : last.Knows context name :=
    knows.mono (fun declared => by simp [isDeclared, Registry.isDeclared_declare, declared]) started
  rintro name mention ⟨found, isFound, isMentioned⟩
  rw [isDeclared, Registry.get?_declare] at isFound
  split at isFound
  · cases isFound
    exact stays (mentioned mention isMentioned)
  · exact stays (known name mention ⟨found, isFound, isMentioned⟩)

/-- A declaration is made only of names that are known. -/
theorem invariance_knowsMentions (context : Context) :
    Invariance context (Workspace.KnowsMentions context) where
  alike known alike := by
    simpa only [Workspace.KnowsMentions, Workspace.Knows, alike.registry, alike.resolver] using known
  notes notes known := by
    simpa only [Workspace.KnowsMentions, Workspace.Knows, notes.registry_eq, notes.resolver_eq]
      using known
  registers {_ _ first last shape _} _ _ _ grounded registers known := by
    obtain ⟨candidate, doc, deprecated, path, isRegistered, isLast⟩ := registers
    have started : ∀ schema, first.resolver.state schema ≠ .pending →
        last.resolver.state schema ≠ .pending := by
      rw [isLast]
      exact fun _ => id
    rcases first.registry.register_cases candidate shape doc deprecated (.inline path) with
      ⟨_, _, _, _, isSame⟩ | ⟨_, _, isDeclared⟩
    · have registry_eq := (Prod.mk.inj (isSame.symm.trans isRegistered)).2
      rintro other mentioned mentions
      rw [← registry_eq] at mentions
      exact (known other mentioned mentions).mono (fun declared => registry_eq ▸ declared) started
    · exact known.declare (Prod.mk.inj (isDeclared.symm.trans isRegistered)).2.symm started
        fun mention isMentioned => (grounded mention isMentioned).knows
  begin {workspace schema} _ known name mentioned mentions := by
    refine (known name mentioned mentions).mono id fun other started => ?_
    rw [Workspace.begin, Resolver.state_start]
    split
    · simp
    · exact started
  conclude {expanding first last schema node name result} begun _ _ _ concludes known := by
    have ended {outcome : EntryState} (isOutcome : outcome ≠ .pending) : ∀ other,
        last.resolver.state other ≠ .pending →
          (last.resolver.finish schema outcome).state other ≠ .pending := by
      intro other started
      rw [Resolver.state_finish]
      split
      · exact isOutcome
      · exact started
    cases concludes with
    | succeeds declares =>
      -- The schema is declared with a shape that mentions what its node has grounded.
      exact known.declare rfl (ended (by simp)) fun mention isMentioned =>
        ((declares.grounds begun).grounded rfl mention isMentioned).knows
    | fails | circular =>
      exact fun name mentioned mentions => (known name mentioned mentions).mono id (ended (by simp))

/-- Later registries extend earlier ones whose mentions are known. -/
theorem Grows.extends {context : Context} {first last : Workspace} (grows : Grows first last)
    (consistent : Consistent context first) (after : Consistent context last)
    (known : first.KnowsMentions context) : last.registry.Extends first.registry where
  get?_eq := grows.get?_eq
  order := grows.order
  undeclared {name mentioned} mentions undeclared := by
    -- What is not declared by then is held for a schema that has failed or is in progress.
    rcases known name mentioned mentions with declared | ⟨schema, emitted, started⟩
    · simp [declared] at undeclared
    · cases declared : last.registry.isDeclared mentioned with
      | false => rfl
      | true =>
        obtain ⟨declaration, found⟩ := (Registry.isDeclared_iff _ _).mp declared
        have registered := (after.registered_of_declared emitted found).2
        rw [grows.state_eq started] at registered
        obtain ⟨held, other, isHeld, stands, _⟩ := consistent.registered registered
        cases isHeld.symm.trans emitted
        simp [Registry.isDeclared, stands] at undeclared

/--
A component schema is declared with a shape that has come of its node. Whatever was ready by then is
registered, or leads to the schema.
-/
inductive Workspace.Records (context : Context) (workspace : Workspace) (schema : String) : Prop
  | walk {node : SchemaNode} {name : String} {declaration : Declaration} {expanding : List String}
    {first last : Workspace} (found : context.model.node? schema = some node)
    (emitted : context.emitted? schema = some name)
    (stands : workspace.registry.get? name = some declaration) (consistent : Consistent context first)
    (yields : Yields context expanding first (.declare node 0) (.shape declaration.shape) last)
    (kept : ∀ name declaration, last.registry.get? name = some declaration →
      workspace.registry.get? name = some declaration)
    (ready : ∀ other, last.Ready other → workspace.resolver.state other = .registered ∨
      Relation.ReflTransGen context.Refers other schema)

/-- What is recorded stays so while nothing declared or registered is lost. -/
theorem Workspace.Records.mono {context : Context} {first last : Workspace} {schema : String}
    (records : first.Records context schema)
    (kept : ∀ name declaration, first.registry.get? name = some declaration →
      last.registry.get? name = some declaration)
    (registered : ∀ schema, first.resolver.state schema = .registered →
      last.resolver.state schema = .registered) : last.Records context schema := by
  cases records with
  | walk found emitted stands consistent yields before ready =>
    exact .walk found emitted (kept _ _ stands) consistent yields
      (fun name declaration stands => kept name declaration (before name declaration stands))
      fun other isReady => (ready other isReady).imp_left (registered other)

/-- Every component schema that is registered is recorded. -/
theorem invariance_records (context : Context) :
    Invariance context fun workspace => ∀ schema, workspace.resolver.state schema = .registered →
      workspace.Records context schema where
  alike records alike schema isRegistered := by
    refine (records schema (alike.resolver ▸ isRegistered)).mono ?_ ?_
    · exact fun _ _ => alike.registry ▸ id
    · exact fun _ => alike.resolver ▸ id
  notes notes records schema isRegistered := by
    refine (records schema (notes.resolver_eq ▸ isRegistered)).mono ?_ ?_
    · exact fun _ _ => notes.registry_eq ▸ id
    · exact fun _ => notes.resolver_eq ▸ id
  registers consistent _ _ _ registers records schema isRegistered := by
    have ⟨_, grows⟩ := registers.advances consistent
    obtain ⟨_, _, _, _, _, isLast⟩ := registers
    rw [isLast] at isRegistered
    refine (records schema isRegistered).mono (fun _ _ => grows.get?_eq) fun _ => ?_
    rw [isLast]
    exact id
  begin pending records schema isRegistered := by
    refine (records schema (Workspace.state_of_begin isRegistered (by simp))).mono (fun _ _ => id) ?_
    intro other alsoRegistered
    rw [Workspace.state_begin, if_neg, alsoRegistered]
    rintro rfl
    cases pending.symm.trans alsoRegistered
  conclude {_ first last schema node name result} begun prepared found emitted concludes records := by
    have ⟨after, grows⟩ := (concludes.steps begun).advances begun
    have undeclared := after.undeclared_of_resolving emitted grows.resolving
    have registered (other : String) (isRegistered : last.resolver.state other = .registered) :
        (last.conclude schema name node result).resolver.state other = .registered := by
      rw [Workspace.state_conclude, if_neg, isRegistered]
      rintro rfl
      cases grows.resolving.symm.trans isRegistered
    intro other isRegistered
    cases concludes with
    | fails | circular =>
      refine (records other (Workspace.state_of_conclude isRegistered (by simp))).mono
        (fun _ _ => id) registered
    | @succeeds shape declares =>
      have kept (also : String) (declaration : Declaration)
          (stands : last.registry.get? also = some declaration) :
          (last.conclude schema name node (.ok shape)).registry.get? also = some declaration := by
        rw [Workspace.conclude, Registry.fill, Registry.get?_declare, if_neg, stands]
        rintro rfl
        cases undeclared.symm.trans stands
      by_cases isSame : other = schema
      · subst isSame
        let declaration : Declaration :=
          { name, shape, doc := node.traits.description, deprecated := node.traits.deprecated
            origin := .component other }
        have stands : (last.conclude other name node (.ok shape)).registry.get? name =
            some declaration := by
          rw [Workspace.conclude, Registry.fill, Registry.get?_declare, if_pos rfl]
        refine @Workspace.Records.walk _ _ _ _ _ declaration _ _ _ found emitted stands begun declares
          kept fun also isReady => ?_
        rcases isReady with isResolving | isReady
        · -- What is in progress leads to the schema, or is the schema itself.
          right
          have wasResolving := grows.was_resolving isResolving
          rw [Workspace.state_begin] at wasResolving
          split at wasResolving
          · rename_i isSame
            exact isSame ▸ .refl
          · exact (prepared.resolving also wasResolving other ⟨other, rfl, .refl⟩).to_reflTransGen
        · exact .inl (registered also isReady)
      · rw [Workspace.state_conclude, if_neg isSame] at isRegistered
        exact (records other isRegistered).mono kept registered

/-- In the beginning nothing is declared. -/
theorem Workspace.get?_ofContext (context : Context) (name : String) :
    (Workspace.ofContext context).registry.get? name = none := by
  have reserves := Workspace.reserves_ofContext context
  rw [Registry.get?, reserves.slots_eq]
  cases (Workspace.ofContext context).resolver.schemas.get? name <;> rfl

namespace Document

variable (document : Document) (config : Config)

/-- Without operations, what is finished are the component schemas alone. -/
theorem unfinished_of_alone (alone : config.includeOperations = false) :
    document.unfinished config = document.entered config ∧ document.bound config = [] := by
  unfold unfinished bound
  rw [run_bindAll, if_neg (by simp [alone])]
  exact ⟨rfl, rfl⟩

/-- All that is mentioned once the component schemas are synthesized is known. -/
theorem knowsMentions_entered : (document.entered config).IsIdle ∧
    (document.entered config).KnowsMentions (document.context config) :=
  document.holds_entered config (invariance_knowsMentions _).toStepInvariant
    fun _ _ ⟨_, found, _⟩ => by simp [Workspace.get?_ofContext] at found

/-- Every component schema that is registered in the end is recorded. -/
theorem records_unfinished {schema : String}
    (isRegistered : (document.unfinished config).resolver.state schema = .registered) :
    (document.unfinished config).Records (document.context config) schema :=
  (document.holds_unfinished config (invariance_records _)
    (document.holds_entered config (invariance_records _).toStepInvariant
      fun schema isRegistered => by simp [Workspace.state_ofContext] at isRegistered)).2 schema isRegistered

/-- Binding operations keeps what has been done for the component schemas. -/
theorem grows_unfinished : Grows (document.entered config) (document.unfinished config) :=
  (document.holds_unfinished config (invariance_knowsMentions _)
    (document.knowsMentions_entered config)).1

/-- Binding operations extends the registry of the component schemas. -/
theorem unfinished_extends_entered :
    (document.unfinished config).registry.Extends (document.entered config).registry :=
  (document.grows_unfinished config).extends (document.consistent_entered config)
    (document.consistent_unfinished config) (document.knowsMentions_entered config).2

end Document

end ApiTypes

import Mathlib.Data.List.Dedup
import ApiTypes.Proofs.Synthesis.Operations

/-!
Accounting for errors during synthesis. A run reports one error for every schema that it leaves failed,
and binding reports one for every operation that it leaves out.
-/

namespace ApiTypes

namespace Workspace

/-- How many errors have been reported. -/
def errors (workspace : Workspace) : Nat := workspace.diagnostics.countP Diagnostic.isError

/-- How many of some component schemas have failed. -/
def failures (workspace : Workspace) (schemas : List String) : Nat :=
  schemas.countP fun schema => workspace.resolver.state schema = .failed

/-- Every component schema has been started. -/
def IsSettled (workspace : Workspace) (context : Context) : Prop :=
  ∀ schema ∈ context.model.names, workspace.resolver.state schema ≠ .pending

end Workspace

/-- A count grows by one where a condition comes to hold of one item of a list without repetitions. -/
theorem countP_add_one {items : List String} (distinct : items.Nodup) {item : String}
    (isItem : item ∈ items) {before after : String → Bool}
    (same : ∀ other, other ≠ item → after other = before other) (didNot : before item = false)
    (does : after item = true) : items.countP after = items.countP before + 1 := by
  induction items with
  | nil => cases isItem
  | cons first rest ih =>
    have ⟨fresh, later⟩ := List.nodup_cons.mp distinct
    rcases List.mem_cons.mp isItem with rfl | inRest
    · -- The item stands here, so nothing else changes.
      have unchanged : rest.countP after = rest.countP before :=
        List.countP_congr fun other isLater => by
          rw [same other fun isSame => fresh (isSame ▸ isLater)]
      simp [didNot, does, unchanged]
    · have other : first ≠ item := fun isSame => fresh (isSame ▸ inRest)
      simp only [List.countP_cons, same first other, ih later inRest]
      omega

/-- A run reports as many errors as it leaves schemas failed. -/
theorem Runs.errors_eq {context : Context} {schemas : List String} (distinct : schemas.Nodup)
    (covers : ∀ schema ∈ context.model.names, schema ∈ schemas) {first last : Workspace}
    (runs : Runs context first last) (consistent : Consistent context first) :
    last.errors + first.failures schemas = first.errors + last.failures schemas := by
  induction runs with
  | refl => omega
  | register _ candidate shape doc deprecated path _ ih => exact ih consistent
  | report before path cause isHarmless ih =>
    rename_i middle
    have unchanged := ih consistent
    have harmless : (⟨path, cause⟩ : Diagnostic).isError = false := by
      simpa [Diagnostic.isError] using isHarmless
    have same_errors : (middle.report path cause).errors = middle.errors := by
      simp [Workspace.errors, Workspace.report, List.countP_append, harmless]
    have same_failures : (middle.report path cause).failures schemas = middle.failures schemas := rfl
    omega
  | component before found pending muted started ends inside ih insideIh =>
    rename_i middle inner name node active expanding result
    have earlier := ih consistent
    obtain ⟨middleConsistent, _⟩ := before.consistent consistent
    have begun := middleConsistent.begin found pending
    have later := insideIh begun
    obtain ⟨_, grows⟩ := inside.consistent begun
    have resolving := grows.resolving
    -- Beginning a schema fails nothing.
    have begun_failures : (middle.begin name).failures schemas = middle.failures schemas :=
      List.countP_congr fun schema _ => by
        by_cases isName : schema = name <;>
          simp [Workspace.begin, Resolver.state_start, isName, pending]
    have begun_errors : (middle.begin name).errors = middle.errors := rfl
    cases result with
    | ok shape =>
      have same_failures : (inner.conclude name (middle.scopeOf name).name node (.ok shape)).failures
          schemas = inner.failures schemas :=
        List.countP_congr fun schema _ => by
          by_cases isName : schema = name <;>
            simp [Workspace.conclude, Resolver.state_finish, isName, resolving]
      have same_errors : (inner.conclude name (middle.scopeOf name).name node (.ok shape)).errors =
          inner.errors := rfl
      omega
    | error located =>
      have more_failures : (inner.conclude name (middle.scopeOf name).name node
          (.error located)).failures schemas = inner.failures schemas + 1 := by
        refine countP_add_one distinct (covers name (context.model.mem_names found))
          (fun other isOther => ?_) (by simp [resolving])
          (by simp [Workspace.conclude, Resolver.state_finish])
        simp [Workspace.conclude, Resolver.state_finish, isOther]
      have more_errors : (inner.conclude name (middle.scopeOf name).name node
          (.error located)).errors = inner.errors + 1 := by
        simp [Workspace.errors, Workspace.conclude, Workspace.reportFailure, Workspace.report,
          List.countP_append, Diagnostic.isError, Cause.severity]
      omega

/-- A run in which every schema has been started reports no error. -/
theorem Runs.errors_eq_of_settled {context : Context} {first last : Workspace}
    (runs : Runs context first last) (consistent : Consistent context first)
    (settled : first.IsSettled context) : last.errors = first.errors := by
  have accounts := runs.errors_eq context.model.names.nodup_dedup
    (fun schema isName => List.mem_dedup.mpr isName) consistent
  -- No state changes any more, so no more schemas fail.
  have same_failures : last.failures context.model.names.dedup =
      first.failures context.model.names.dedup :=
    List.countP_congr fun schema isName => by
      rw [(runs.consistent consistent).2.state_eq (settled schema (List.mem_dedup.mp isName))]
  omega

/-- The workspaces of synthesis: those of runs, between which failures may be reported. -/
inductive Reachable (context : Context) : Workspace → Prop
  | initial : Reachable context (Workspace.ofContext context)
  | runs {first last : Workspace} (before : Reachable context first)
    (runs : Runs context first last) : Reachable context last
  | failure {workspace : Workspace} (before : Reachable context workspace)
    (located : LocatedFailure) : Reachable context (workspace.reportFailure located)

/-- Every workspace of synthesis is consistent. -/
theorem Reachable.consistent {context : Context} {workspace : Workspace}
    (reachable : Reachable context workspace) : Consistent context workspace := by
  induction reachable with
  | initial => exact Consistent.ofContext context
  | runs _ runs ih => exact (runs.consistent ih).1
  | failure _ located ih => exact (ih.report _ _).1

namespace Synthesis

variable {context : Context}

/-- Entering a component schema is a run. -/
theorem runs_enter {workspace : Workspace} (consistent : Consistent context workspace)
    (name : String) : Runs context workspace ((enter context name).run workspace).2 :=
  (sound_surroundings context).enter consistent (by simp)

/-- A component schema that has been entered has been started. -/
theorem started_enter {name : String} (isName : name ∈ context.model.names) (workspace : Workspace) :
    ((enter context name).run workspace).2.resolver.state name ≠ .pending := by
  rcases enterWithin_cases context [] [] name workspace with
    ⟨same, undefined | isActive | started⟩ | ⟨node, result, inner, _, _, _, _, isLast⟩
  · have isAbsent := (Table.get?_eq_none_iff context.model.nodes name).mp undefined
    exact absurd isName isAbsent
  · cases isActive
  · rw [enter, same]
    exact started
  · rw [enter, isLast]
    cases result <;> simp [Workspace.conclude, Resolver.state_finish]

/-- Entering component schemas one after the other is a run. -/
theorem runs_forM_enter (names : List String) {first : Workspace} (consistent : Consistent context first) :
    Runs context first ((names.forM (enter context)).run first).2 := by
  induction names generalizing first with
  | nil => exact .refl first
  | cons name rest ih =>
    have runs := runs_enter consistent name
    exact runs.trans (ih (runs.consistent consistent).1)

/-- All of them have been started then. -/
theorem started_forM_enter {names : List String} (included : names ⊆ context.model.names)
    {first : Workspace} (consistent : Consistent context first) :
    ∀ name ∈ names, ((names.forM (enter context)).run first).2.resolver.state name ≠ .pending := by
  induction names generalizing first with
  | nil => exact fun _ isName => absurd isName List.not_mem_nil
  | cons name rest ih =>
    have ⟨isName, restNames⟩ := List.cons_subset.mp included
    have started := started_enter isName first
    have after := ((runs_enter consistent name).consistent consistent).1
    refine List.forall_mem_cons.mpr ⟨fun isPending => started ?_, ih restNames after⟩
    -- What has been started stays so while the others are entered.
    have kept := ((runs_forM_enter rest after).consistent after).2.state_eq started
    exact kept.symm.trans isPending

/-- What each entry of a component schema preserves holds after several of them. -/
theorem forM_enter_preserves {property : Workspace → Prop}
    (step : ∀ name first, Consistent context first → property first →
      property ((enter context name).run first).2) (names : List String)
    {first : Workspace} (consistent : Consistent context first) (holds : property first) :
    property ((names.forM (enter context)).run first).2 := by
  induction names generalizing first with
  | nil => exact holds
  | cons name rest ih =>
    exact ih ((runs_enter consistent name).consistent consistent).1 (step name first consistent holds)

/-- So it does after the entry of all component schemas. -/
theorem enterAll_preserves {property : Workspace → Prop}
    (step : ∀ name first, Consistent context first → property first →
      property ((enter context name).run first).2)
    {workspace : Workspace} (consistent : Consistent context workspace)
    (holds : property workspace) : property ((enterAll context).run workspace).2 :=
  forM_enter_preserves step context.model.names consistent holds

/-- Entering all component schemas is a run, after which all of them have been started. -/
theorem runs_enterAll {workspace : Workspace} (consistent : Consistent context workspace) :
    Runs context workspace ((enterAll context).run workspace).2 ∧
      ((enterAll context).run workspace).2.IsSettled context :=
  ⟨runs_forM_enter context.model.names consistent, started_forM_enter (List.Subset.refl _) consistent⟩

end Synthesis

/-- Where an operation stands: its path and its method. -/
def OperationBinding.key (binding : OperationBinding) : String × Method :=
  (binding.path, binding.method)

/-- Where the operations of a path stand. -/
def PathItem.keys (item : PathItem) (path : String) : List (String × Method) :=
  item.operations.map fun operation => (path, operation.1)

/-- Where the operations of a document stand. -/
def Document.operationKeys (document : Document) : List (String × Method) :=
  document.paths.entries.flatMap fun entry => entry.2.keys entry.1

namespace Synthesis

variable {context : Context} {components : Components}

/-- A bound operation stands where the operation does. -/
theorem key_of_ends {method : Method} {path : String} {item : PathItem} {operation : Operation}
    {binding : OperationBinding} {first last : Workspace}
    (ends : (bindOperation context components method path item operation).Ends first (.ok binding)
      last) : binding.key = (path, method) := by
  unfold bindOperation at ends
  obtain ⟨_, _, _, ends⟩ := (ends_bind_ok_iff _ _ _).mp ends
  obtain ⟨_, _, _, ends⟩ := (ends_bind_ok_iff _ _ _).mp ends
  obtain ⟨_, _, _, ends⟩ := (ends_bind_ok_iff _ _ _).mp ends
  split at ends <;>
  · obtain ⟨_, _, _, ends⟩ := (ends_bind_ok_iff _ _ _).mp ends
    obtain ⟨_, _, _, ends⟩ := (ends_bind_ok_iff _ _ _).mp ends
    obtain ⟨isBinding, _⟩ := (ends_pure_iff _).mp ends
    cases isBinding
    rfl

/--
The operations at some places have been bound: the bindings stand at some of them in order, and one
error has been reported for each of the others.
-/
structure Binds (context : Context) (first : Workspace) (keys : List (String × Method))
    (bindings : List OperationBinding) (last : Workspace) : Prop where
  reachable : Reachable context last
  state_eq : ∀ {schema}, first.resolver.state schema ≠ .pending →
    last.resolver.state schema = first.resolver.state schema
  sublist : (bindings.map OperationBinding.key).Sublist keys
  errors : last.errors + bindings.length = first.errors + keys.length

namespace Binds

variable {first middle last : Workspace}

/-- There may be nothing to bind. -/
theorem nil (reachable : Reachable context first) : Binds context first [] [] first where
  reachable := reachable
  state_eq _ := rfl
  sublist := List.Sublist.refl _
  errors := rfl

/-- Schemas that have been started stay so. -/
theorem settled {keys : List (String × Method)} {bindings : List OperationBinding}
    (binds : Binds context first keys bindings last) (settled : first.IsSettled context) :
    last.IsSettled context := by
  intro schema isName
  rw [binds.state_eq (settled schema isName)]
  exact settled schema isName

/-- Operations may be bound one after the other. -/
theorem append {keys more : List (String × Method)} {bindings others : List OperationBinding}
    (earlier : Binds context first keys bindings middle)
    (later : Binds context middle more others last) :
    Binds context first (keys ++ more) (bindings ++ others) last where
  reachable := later.reachable
  state_eq {schema} started := by
    have same := earlier.state_eq started
    rw [later.state_eq (same ▸ started), same]
  sublist := by
    rw [List.map_append]
    exact earlier.sublist.append later.sublist
  errors := by
    have first_errors := earlier.errors
    have last_errors := later.errors
    simp only [List.length_append]
    omega

end Binds

/-- An operation that is bound stands in front of the others that are. -/
theorem run_bindItem_ok {path : String} {item : PathItem} {method : Method} {operation : Operation}
    {binding : OperationBinding} {first middle : Workspace}
    (ends : (bindOperation context components method path item operation).Ends first (.ok binding)
      middle) (rest : List (Method × Operation)) :
    (bindItem context components path item ((method, operation) :: rest)).run first =
      (binding :: ((bindItem context components path item rest).run middle).1,
        ((bindItem context components path item rest).run middle).2) := by
  unfold Ends outcome at ends
  simp only [bindItem, StateT.run_bind]
  rw [ends]
  rfl

/-- An operation that fails is reported in front of the others. -/
theorem run_bindItem_error {path : String} {item : PathItem} {method : Method}
    {operation : Operation} {located : LocatedFailure} {first middle : Workspace}
    (ends : (bindOperation context components method path item operation).Ends first
      (.error located) middle) (rest : List (Method × Operation)) :
    (bindItem context components path item ((method, operation) :: rest)).run first =
      (bindItem context components path item rest).run (middle.reportFailure located) := by
  unfold Ends outcome at ends
  simp only [bindItem, StateT.run_bind]
  rw [ends]
  rfl

/-- Every operation of a path is bound, or reported and left out. -/
theorem binds_bindItem (path : String) (item : PathItem) (operations : List (Method × Operation))
    {first : Workspace} (reachable : Reachable context first)
    (settled : first.IsSettled context) :
    Binds context first (operations.map fun operation => (path, operation.1))
      ((bindItem context components path item operations).run first).1
      ((bindItem context components path item operations).run first).2 := by
  induction operations generalizing first with
  | nil => exact Binds.nil reachable
  | cons operation rest ih =>
    obtain ⟨method, operation⟩ := operation
    obtain ⟨result, middle, ends⟩ :=
      (bindOperation context components method path item operation).exists_ends first
    have consistent := reachable.consistent
    have ⟨runs, _⟩ := keeps_bindOperation components method path item operation _ _ _ consistent
      (by simp) (by simp) ends
    have ⟨_, grows⟩ := runs.consistent consistent
    have same_errors := runs.errors_eq_of_settled consistent settled
    have afterwards : Reachable context middle := reachable.runs runs
    -- A schema that has been settled stays so, and the other operations start from there.
    have middleSettled : middle.IsSettled context := fun schema isName => by
      rw [grows.state_eq (settled schema isName)]
      exact settled schema isName
    -- A binding adds a key and no error; a failure adds an error and no key.
    cases result with
    | ok binding =>
      have one : Binds context first [(path, method)] [binding] middle :=
        { reachable := afterwards
          state_eq := grows.state_eq
          sublist := by simp [key_of_ends ends]
          errors := by simp [same_errors] }
      rw [run_bindItem_ok ends]
      exact one.append (ih afterwards middleSettled)
    | error located =>
      have none : Binds context first [(path, method)] [] (middle.reportFailure located) :=
        { reachable := afterwards.failure located
          state_eq := grows.state_eq
          sublist := List.nil_sublist _
          errors := by
            simp [Workspace.errors, Workspace.reportFailure, Workspace.report, Diagnostic.isError,
              Cause.severity, List.countP_append] at same_errors ⊢
            exact same_errors }
      rw [run_bindItem_error ends]
      exact none.append (ih (afterwards.failure located) middleSettled)

/-- Every operation is bound, or reported and left out. -/
theorem binds_bindPaths (paths : List (String × PathItem)) {first : Workspace}
    (reachable : Reachable context first) (settled : first.IsSettled context) :
    Binds context first (paths.flatMap fun entry => entry.2.keys entry.1)
      ((bindPaths context components paths).run first).1
      ((bindPaths context components paths).run first).2 := by
  induction paths generalizing first with
  | nil => exact Binds.nil reachable
  | cons entry rest ih =>
    obtain ⟨path, item⟩ := entry
    have here : Binds context first (item.keys path)
        ((bindItem context components path item item.operations).run first).1
        ((bindItem context components path item item.operations).run first).2 :=
      binds_bindItem path item item.operations reachable settled
    exact here.append (ih here.reachable (here.settled settled))

end Synthesis

end ApiTypes

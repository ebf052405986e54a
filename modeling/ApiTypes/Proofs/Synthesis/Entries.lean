import Mathlib.Data.Finset.Card
import ApiTypes.Proofs.Synthesis.Steps

/-!
Entries of component schemas. What every step keeps an entry keeps, as each schema is begun only once;
and whatever is in progress when a step is made leads to all to which that step leads.
-/

namespace ApiTypes

open Relation

/-- How the synthesis of a component schema ends once it has begun. -/
inductive Concludes (context : Context) (expanding : List String) (schema : String)
    (node : SchemaNode) (first last : Workspace) : Except LocatedFailure Shape → Prop
  | succeeds {shape : Shape}
    (declares : Yields context expanding first (.declare node 0) (.shape shape) last)
    (passes : Synthesis.circular? context last shape = none) :
    Concludes context expanding schema node first last (.ok shape)
  | fails {path : String} {failure : Failure}
    (declares : Fails context expanding first (.declare node 0) failure last) :
    Concludes context expanding schema node first last (.error ⟨path, failure⟩)
  /-- The shape is another name of a schema in progress. -/
  | circular {shape : Shape} {other : String}
    (declares : Yields context expanding first (.declare node 0) (.shape shape) last)
    (isCircular : Synthesis.circular? context last shape = some other) :
    Concludes context expanding schema node first last
      (.error ⟨Pointer.ofSchema schema, .circularAlias other⟩)

/-- A component schema that is asked for is begun and concluded, if anything happens at all. -/
theorem Entry.cases {context : Context} {expanding : List String} {schema : String}
    {first last : Workspace} (entry : Entry context expanding schema first last)
    (consistent : Consistent context first) :
    last = first ∨ ∃ node inner result name, context.model.node? schema = some node ∧
      context.emitted? schema = some name ∧ first.resolver.state schema = .pending ∧
      Concludes context expanding schema node (first.begin schema) inner result ∧
      last = inner.conclude schema name node result := by
  cases entry with
  | skip => exact .inl rfl
  | @component inner node found pending active started result ends =>
    refine .inr ⟨node, inner, result, _, found, consistent.emitted?_eq_scopeOf found, pending, ?_, rfl⟩
    have adequate :=
      Synthesis.adequate_within context (!expanding.isEmpty) (schema :: active) expanding
    have begun := consistent.begin found pending
    have isStarted : Started (schema :: active) (first.begin schema) :=
      Synthesis.started_begin started
    have follows := (adequate.walkFollows node).declare (first.scopeOf schema) 0
    unfold Synthesis.shapeWithin at ends
    -- A failure is one of the declaration, or it is found when the shape is checked.
    cases result with
    | ok shape =>
      obtain ⟨declares, passes⟩ := (Synthesis.ends_shapeWithin_ok_iff _ _ _ _).mp ends
      exact .succeeds (follows _ _ _ begun isStarted declares) passes
    | error located =>
      simp only [Synthesis.ends_bind_error_iff, Synthesis.ends_checkAlias_iff,
        Synthesis.ends_pure_iff, reduceCtorEq, false_and, and_false, exists_false, or_false] at ends
      rcases ends with declares | ⟨shape, middle, declares, rfl, isError⟩
      · exact .fails (follows _ _ _ begun isStarted declares)
      · have yields := follows _ _ _ begun isStarted declares
        split at isError
        · cases isError
        · rename_i other isCircular
          cases isError
          exact .circular yields isCircular

variable {context : Context} {expanding : List String} {first last : Workspace}

/-- A task consists of steps that keep what was declared before. -/
theorem Steps.advances {task : Task} (steps : Steps context expanding task first last) :
    Advances context first last := by
  induction steps with
  | refl => exact .refl _
  | notes notes => exact notes.advances
  | registers _ _ registers => exact registers.advances
  | entry _ _ _ entry => exact entry.advances
  | trans _ _ ih laterIh => exact ih.trans laterIh

/-- Whatever is in progress or expanded refers, by some references, to all that a task leads to. -/
structure Prepared (context : Context) (expanding : List String) (task : Task)
    (workspace : Workspace) : Prop where
  refined : ∀ schema ∈ expanding, ¬context.IsAtomic schema
  expanded : ∀ schema ∈ expanding, ∀ target, task.Leads context target →
    TransGen context.Refers schema target
  resolving : ∀ schema, workspace.resolver.state schema = .resolving → ∀ target,
    task.Leads context target → TransGen context.Refers schema target

namespace Prepared

/-- Nothing that is begun inside a task stays in progress. -/
theorem advance {task : Task} (prepared : Prepared context expanding task first)
    (grows : Grows first last) : Prepared context expanding task last where
  refined := prepared.refined
  expanded := prepared.expanded
  resolving schema isResolving := prepared.resolving schema (grows.was_resolving isResolving)

/-- What a task leads to is prepared as the task is. -/
theorem reference {task : Task} (prepared : Prepared context expanding task first) {target : String}
    {further : List String} (leads : task.Leads context target)
    (stacked : ∀ schema ∈ further, schema ∈ expanding ∨ task.Leads context schema ∧
      ¬context.IsAtomic schema ∧ TransGen context.Refers schema target) :
    Prepared context further (.reference target) first where
  refined schema isStacked := by
    rcases stacked schema isStacked with isExpanding | ⟨_, isRefined, _⟩
    · exact prepared.refined schema isExpanding
    · exact isRefined
  expanded schema isStacked other := by
    rintro ⟨_, rfl, path⟩
    rcases stacked schema isStacked with isExpanding | ⟨_, _, before⟩
    · exact prepared.expanded schema isExpanding other (leads.trans path)
    · exact before.trans_left path
  resolving schema isResolving other := by
    rintro ⟨_, rfl, path⟩
    exact prepared.resolving schema isResolving other (leads.trans path)

/-- The node of a schema is prepared once the schema has begun. -/
theorem begin {target : String} {node : SchemaNode}
    (prepared : Prepared context expanding (.reference target) first)
    (found : context.model.node? target = some node) :
    Prepared context expanding (.declare node 0) (first.begin target) := by
  have led {other : String} (leads : (Task.declare node 0).Leads context other) :
      TransGen context.Refers target other := (Task.leads_declare found).mp leads
  have self : (Task.reference target).Leads context target := ⟨target, rfl, .refl⟩
  refine ⟨prepared.refined, fun schema isExpanding other leads =>
    (prepared.expanded schema isExpanding target self).trans (led leads),
    fun schema isResolving other leads => ?_⟩
  rw [Workspace.begin, Resolver.state_start] at isResolving
  split at isResolving
  · rename_i isTarget
    exact isTarget ▸ led leads
  · exact (prepared.resolving schema isResolving target self).trans (led leads)

end Prepared

/-- The component schemas that have not been started. -/
def Workspace.waiting (context : Context) (workspace : Workspace) : Finset String :=
  context.model.names.toFinset.filter fun schema => workspace.resolver.state schema = .pending

/-- What has been started does not wait again. -/
theorem Grows.waiting_subset (grows : Grows first last) :
    last.waiting context ⊆ first.waiting context := by
  intro schema isWaiting
  simp only [Workspace.waiting, Finset.mem_filter] at isWaiting ⊢
  refine ⟨isWaiting.1, by_contra fun isStarted => isStarted ?_⟩
  exact (grows.state_eq isStarted).symm.trans isWaiting.2

/-- A schema that has begun waits no more. -/
theorem Workspace.waiting_begin {schema : String} {node : SchemaNode}
    (found : context.model.node? schema = some node)
    (pending : first.resolver.state schema = .pending) :
    (first.begin schema).waiting context ⊂ first.waiting context := by
  refine Finset.ssubset_iff_of_subset (fun other isWaiting => ?_) |>.mpr ⟨schema, ?_, ?_⟩
  · simp only [waiting, Finset.mem_filter, begin, Resolver.state_start] at isWaiting ⊢
    refine ⟨isWaiting.1, ?_⟩
    split at isWaiting
    · simp at isWaiting
    · exact isWaiting.2
  · simpa [waiting, pending] using context.model.mem_names found
  · simp [waiting, begin, Resolver.state_start]

/-- What every step of synthesis keeps, when it is made for a task that is prepared. -/
structure StepInvariant (context : Context) (holds : Workspace → Prop) : Prop where
  notes : ∀ {first last}, first.Notes last → holds first → holds last
  registers : ∀ {expanding task first last shape name}, Consistent context first →
    Prepared context expanding task first → shape.Derived context →
    (∀ mention ∈ shape.mentions, Grounded context task first mention) →
    first.Registers shape name last → holds first → holds last
  begin : ∀ {workspace schema}, workspace.resolver.state schema = .pending → holds workspace →
    holds (workspace.begin schema)
  conclude : ∀ {expanding first last schema node name result},
    Consistent context (first.begin schema) → Prepared context expanding (.reference schema) first →
    context.model.node? schema = some node → context.emitted? schema = some name →
    Concludes context expanding schema node (first.begin schema) last result → holds last →
    holds (last.conclude schema name node result)

/-- The steps of a task keep an invariant if the entries in them do. -/
theorem Steps.preserve {task : Task} {holds : Workspace → Prop}
    (steps : Steps context expanding task first last) (invariant : StepInvariant context holds)
    (entries : ∀ {further : List String} {target : String} {before after : Workspace},
      before.waiting context ⊆ first.waiting context → Entry context further target before after →
      Consistent context before → Prepared context further (.reference target) before →
      holds before → holds after)
    (consistent : Consistent context first) (prepared : Prepared context expanding task first)
    (held : holds first) : holds last := by
  induction steps with
  | refl => exact held
  | notes notes => exact invariant.notes notes held
  | registers derived grounded registers =>
    exact invariant.registers consistent prepared derived grounded registers held
  | entry leads _ stacked entry =>
    exact entries (Finset.Subset.refl _) entry consistent (prepared.reference leads stacked) held
  | trans earlier _ ih laterIh =>
    have ⟨between, grows⟩ := earlier.advances consistent
    refine laterIh (fun isLess entry => ?_) between (prepared.advance grows)
      (ih entries consistent prepared held)
    exact entries (isLess.trans grows.waiting_subset) entry

/-- How a component schema ends is the end of the steps of its declaration. -/
theorem Concludes.steps {schema : String} {node : SchemaNode}
    {result : Except LocatedFailure Shape}
    (concludes : Concludes context expanding schema node first last result)
    (consistent : Consistent context first) :
    Steps context expanding (.declare node 0) first last := by
  cases concludes with
  | succeeds declares | circular declares => exact declares.steps consistent
  | fails declares => exact declares.steps consistent

/-- What comes of a task comes of its steps. -/
theorem Comes.steps {α : Type} {task : Task} {wrap : α → Value} {result : Except LocatedFailure α}
    (comes : Comes context expanding first task wrap result last) (consistent : Consistent context first) :
    Steps context expanding task first last := by
  cases result with
  | ok value => exact Yields.steps comes consistent
  | error located => exact Fails.steps comes consistent

/-- An entry keeps what every step keeps. -/
theorem Entry.preserves {schema : String} {holds : Workspace → Prop}
    (entry : Entry context expanding schema first last) (invariant : StepInvariant context holds)
    (consistent : Consistent context first)
    (prepared : Prepared context expanding (.reference schema) first) (held : holds first) :
    holds last := by
  -- The induction is on the schemas that have not been started.
  generalize isWaiting : first.waiting context = waiting
  induction waiting using Finset.strongInduction generalizing expanding schema first last with
  | H waiting ih =>
    subst isWaiting
    rcases entry.cases consistent with
      rfl | ⟨node, inner, result, name, found, emitted, pending, concludes, rfl⟩
    · exact held
    have begun := consistent.begin found pending
    refine invariant.conclude begun prepared found emitted concludes ?_
    refine (concludes.steps begun).preserve invariant (fun isLess entry consistent prepared held => ?_)
      begun (prepared.begin found) (invariant.begin pending held)
    exact ih _ (isLess.trans_ssubset (Workspace.waiting_begin found pending)) entry consistent prepared
      held rfl

/-- The steps of a task keep what every step keeps. -/
theorem Steps.preserves {task : Task} {holds : Workspace → Prop}
    (steps : Steps context expanding task first last) (invariant : StepInvariant context holds)
    (consistent : Consistent context first) (prepared : Prepared context expanding task first)
    (held : holds first) : holds last :=
  steps.preserve invariant (fun _ entry => entry.preserves invariant) consistent prepared held

end ApiTypes

import ApiTypes.Proofs.Synthesis.Accounting

/-!
The order in which component schemas begin. Each of them begins once at most, as it is pending before and
never again.
-/

namespace ApiTypes

/-- A run in which component schemas begin in some order, a schema before those that begin inside it. -/
inductive Begins (context : Context) : Workspace → List String → Workspace → Prop
  | refl (workspace : Workspace) : Begins context workspace [] workspace
  | register {first middle : Workspace} {begun : List String} (begins : Begins context first begun middle)
    (candidate : String) (shape : Shape) (doc : Option String) (deprecated : Bool) (path : String)
    (isPlain : shape.synonym? = none) :
    Begins context first begun { middle with
      registry := (middle.registry.register candidate shape doc deprecated (.inline path)).2 }
  | report {first middle : Workspace} {begun : List String} (begins : Begins context first begun middle)
    (path : String) (cause : Cause) (isHarmless : cause.severity ≠ .error) :
    Begins context first begun (middle.report path cause)
  | component {first middle inner : Workspace} {begun more : List String}
    (begins : Begins context first begun middle) {name : String} {node : SchemaNode}
    (found : context.model.node? name = some node)
    (pending : middle.resolver.state name = .pending) (muted : Bool)
    {active expanding : List String}
    (started : ∀ other ∈ active, middle.resolver.state other ≠ .pending)
    {result : Except LocatedFailure Shape}
    (ends : (Synthesis.shapeWithin (Synthesis.within context muted (name :: active) expanding) node
      (middle.scopeOf name)).Ends (middle.begin name) result inner)
    (inside : Begins context (middle.begin name) more inner) :
    Begins context first (begun ++ name :: more)
      (inner.conclude name (middle.scopeOf name).name node result)

/-- The order in which component schemas begin on the way to a workspace of synthesis. -/
inductive BeginsUpTo (context : Context) : List String → Workspace → Prop
  | initial : BeginsUpTo context [] (Workspace.ofContext context)
  | runs {first last : Workspace} {begun more : List String} (before : BeginsUpTo context begun first)
    (begins : Begins context first more last) : BeginsUpTo context (begun ++ more) last
  | failure {workspace : Workspace} {begun : List String} (before : BeginsUpTo context begun workspace)
    (located : LocatedFailure) : BeginsUpTo context begun (workspace.reportFailure located)

variable {context : Context} {first last : Workspace}

/-- In every run component schemas begin in some order. -/
theorem Runs.begins (runs : Runs context first last) : ∃ begun, Begins context first begun last := by
  induction runs with
  | refl workspace => exact ⟨[], .refl workspace⟩
  | register _ candidate shape doc deprecated path isPlain ih =>
    obtain ⟨begun, begins⟩ := ih
    exact ⟨begun, begins.register candidate shape doc deprecated path isPlain⟩
  | report _ path cause isHarmless ih =>
    obtain ⟨begun, begins⟩ := ih
    exact ⟨begun, begins.report path cause isHarmless⟩
  | component _ found pending muted started ends _ ih insideIh =>
    obtain ⟨begun, begins⟩ := ih
    obtain ⟨more, inside⟩ := insideIh
    exact ⟨_, begins.component found pending muted started ends inside⟩

/-- The order is one of a run. -/
theorem Begins.runs {begun : List String} (begins : Begins context first begun last) :
    Runs context first last := by
  induction begins with
  | refl workspace => exact .refl workspace
  | register _ candidate shape doc deprecated path isPlain ih =>
    exact ih.register candidate shape doc deprecated path isPlain
  | report _ path cause isHarmless ih => exact ih.report path cause isHarmless
  | component _ found pending muted started ends _ ih insideIh =>
    exact ih.component found pending muted started ends insideIh

/-- No schema begins twice in a run, and those that do are the ones that are pending only before. -/
theorem Begins.once {begun : List String} (begins : Begins context first begun last)
    (consistent : Consistent context first) :
    begun.Nodup ∧ ∀ schema, schema ∈ begun ↔ first.resolver.state schema = .pending ∧
      last.resolver.state schema ≠ .pending := by
  induction begins with
  | refl => simp
  | register _ _ _ _ _ _ _ ih => exact ih consistent
  | report _ _ _ _ ih => exact ih consistent
  | @component first middle inner begun more begins name node found pending _ _ _ _ result _ inside
      ih insideIh =>
    obtain ⟨between, grows⟩ := begins.runs.consistent consistent
    have begun := between.begin found pending
    obtain ⟨distinct, isBegun⟩ := ih consistent
    obtain ⟨distinctInside, isMore⟩ := insideIh begun
    have ⟨_, further⟩ := inside.runs.consistent begun
    have notPending : ∀ schema, first.resolver.state schema ≠ .pending →
        middle.resolver.state schema ≠ .pending := fun schema isStarted => by
      rwa [grows.state_eq isStarted]
    have staysBegun : ∀ schema, schema ≠ name → middle.resolver.state schema ≠ .pending →
        inner.resolver.state schema ≠ .pending := fun schema isOther isStarted => by
      have isSame : (middle.begin name).resolver.state schema = middle.resolver.state schema := by
        rw [Workspace.state_begin, if_neg isOther]
      rw [further.state_eq (isSame ▸ isStarted), isSame]
      exact isStarted
    constructor
    · -- What has begun before is not pending, and so it begins neither now nor inside.
      refine List.nodup_append.mpr ⟨distinct, List.nodup_cons.mpr ⟨fun isInside => ?_, distinctInside⟩,
        fun schema isBefore other isAfter isSame => ?_⟩
      · have isPending := ((isMore name).mp isInside).1
        simp [Workspace.state_begin] at isPending
      · subst isSame
        have isStarted := ((isBegun schema).mp isBefore).2
        rcases List.mem_cons.mp isAfter with rfl | isInside
        · exact isStarted pending
        · have isPending := ((isMore schema).mp isInside).1
          rw [Workspace.state_begin] at isPending
          split at isPending
          · cases isPending
          · exact isStarted isPending
    · intro schema
      rw [List.mem_append, List.mem_cons, isBegun, isMore, Workspace.state_conclude,
        Workspace.state_begin]
      by_cases isName : schema = name
      · subst isName
        have wasPending : first.resolver.state schema = .pending :=
          by_contra fun isStarted => notPending schema isStarted pending
        cases result <;> simp [wasPending]
      · simp only [isName, if_false, false_or]
        by_cases isPending : middle.resolver.state schema = .pending
        · have wasPending : first.resolver.state schema = .pending :=
            by_contra fun isStarted => notPending schema isStarted isPending
          simp [isPending, wasPending]
        · simp [isPending, staysBegun schema isName isPending]

/-- On the way to every workspace of synthesis component schemas begin in some order. -/
theorem Reachable.beginsUpTo {workspace : Workspace} (reachable : Reachable context workspace) :
    ∃ begun, BeginsUpTo context begun workspace := by
  induction reachable with
  | initial => exact ⟨[], .initial⟩
  | runs _ runs ih =>
    obtain ⟨begun, before⟩ := ih
    obtain ⟨more, begins⟩ := runs.begins
    exact ⟨begun ++ more, before.runs begins⟩
  | failure _ located ih =>
    obtain ⟨begun, before⟩ := ih
    exact ⟨begun, before.failure located⟩

namespace BeginsUpTo

variable {begun : List String} {workspace : Workspace}

/-- What has an order is a workspace of synthesis. -/
theorem reachable (begins : BeginsUpTo context begun workspace) : Reachable context workspace := by
  induction begins with
  | initial => exact .initial
  | runs _ begins ih => exact ih.runs begins.runs
  | failure _ located ih => exact ih.failure located

/-- No schema has begun twice, and those that have are the ones that are not pending. -/
theorem once (begins : BeginsUpTo context begun workspace) :
    begun.Nodup ∧ ∀ schema, schema ∈ begun ↔ workspace.resolver.state schema ≠ .pending := by
  induction begins with
  | initial => simp [Workspace.state_ofContext]
  | @runs first last begun more before begins ih =>
    have consistent := before.reachable.consistent
    obtain ⟨distinct, isBegun⟩ := ih
    obtain ⟨distinctMore, isMore⟩ := begins.once consistent
    have ⟨_, grows⟩ := begins.runs.consistent consistent
    refine ⟨List.nodup_append.mpr ⟨distinct, distinctMore, fun schema isBefore other isAfter isSame => ?_⟩,
      fun schema => ?_⟩
    -- What began before is not pending when the run starts, so it does not begin in it.
    · subst isSame
      exact (isBegun schema).mp isBefore ((isMore schema).mp isAfter).1
    · rw [List.mem_append, isBegun, isMore]
      by_cases isPending : first.resolver.state schema = .pending
      · simp [isPending]
      · simp [isPending, grows.state_eq isPending]
  | failure _ _ ih => exact ih

end BeginsUpTo

end ApiTypes

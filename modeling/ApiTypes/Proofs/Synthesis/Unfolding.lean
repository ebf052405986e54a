import ApiTypes.Proofs.Synthesis.Agreement
import ApiTypes.Proofs.Synthesis.Entries
import ApiTypes.Proofs.Synthesis.Growth

/-!
The recursion between component schemas, unfolded level by level. It has no guards but the states of the
schemas and the stack of expansions, and these bring it to an end: after as many levels as there are
schemas to begin and to expand, it makes no difference what the innermost level does.
-/

namespace ApiTypes

open Synthesis

/-- What the walks of nodes ask of each other through component schemas, given the stack of expansions. -/
structure Recursion where
  enter : List String → String → StateM Workspace Unit
  expand : List String → String → String → Synthesis MemberShape

namespace Recursion

variable (context : Context)

/-- The surroundings of a node that is walked inside a stack of expansions. -/
def around (recursion : Recursion) (muted : Bool) (expanding : List String) : Surroundings :=
  { context, muted, enter := recursion.enter expanding, expand := recursion.expand expanding }

/-- One level of the recursion, in which everything that is inside is left to another one. -/
def unfold (inner : Recursion) : Recursion where
  enter expanding name :=
    match context.model.node? name with
    | none => return ()
    | some node => do
      if (← get).resolver.state name = .pending then
        declareComponent name node
          (shapeWithin (inner.around context (!expanding.isEmpty) expanding) node)
  expand expanding name path :=
    if expanding.contains name then failComposition path (.cyclicIntersection name)
    else match context.model.node? name with
      | none => fail path (.undefinedReference name)
      | some node =>
        if context.model.isUnion node then return .union
        else do
          let workspace ← get
          ((inner.around context true (name :: expanding)).walk node).expand
            ⟨emittedName workspace name name, Pointer.ofSchema name⟩

/-- Two recursions that do the same inside every stack on which no schema stands twice. -/
def SameOnDistinct (one other : Recursion) : Prop :=
  ∀ expanding : List String, expanding.Nodup →
    one.enter expanding = other.enter expanding ∧ one.expand expanding = other.expand expanding

/-- No level puts a schema on the stack of expansions that stands there already. -/
theorem SameOnDistinct.unfold {one other : Recursion} (same : one.SameOnDistinct other) :
    (one.unfold context).SameOnDistinct (other.unfold context) := by
  -- A schema that is expanded is not among those that are, so the names stay distinct.
  have around (muted : Bool) {expanding : List String} (distinct : expanding.Nodup) :
      one.around context muted expanding = other.around context muted expanding := by
    rw [Recursion.around, Recursion.around, (same expanding distinct).1, (same expanding distinct).2]
  intro expanding distinct
  constructor
  · funext name
    simp only [Recursion.unfold, around _ distinct]
  · funext name path
    simp only [Recursion.unfold]
    split
    · rfl
    · rename_i fresh
      have stacked : (name :: expanding).Nodup :=
        List.nodup_cons.mpr ⟨by simpa using fresh, distinct⟩
      rw [around _ stacked]

end Recursion

/--
From consistent workspaces in which at most a number of schemas waits, two actions end in the same way, and
keep what is declared.
-/
def Coincide (context : Context) (active : List String) (bound : Nat) ⦃α : Type⦄
    (action also : Synthesis α) : Prop :=
  ∀ first, Consistent context first → Started active first →
    (first.waiting context).card ≤ bound → also.outcome first = action.outcome first ∧
      Consistent context (action.outcome first).2 ∧ Grows first (action.outcome first).2

namespace Coincide

variable {context : Context} {active expanding : List String} {bound : Nat} {α β : Type}

/-- An action that keeps what is declared coincides with itself. -/
theorem self {action : Synthesis α}
    (advances : ∀ first, Advances context first (action.outcome first).2) :
    Coincide context active bound action action :=
  fun first consistent _ _ => ⟨rfl, advances first consistent⟩

/-- An action that changes nothing coincides with itself. -/
theorem unchanged {action : Synthesis α} (isSame : ∀ first, (action.outcome first).2 = first) :
    Coincide context active bound action action :=
  self fun first => (isSame first).symm ▸ .refl first

/-- Actions that coincide may go on with actions that do. -/
theorem bind {action also : Synthesis α} {next alsoNext : α → Synthesis β}
    (earlier : Coincide context active bound action also)
    (later : ∀ value, Coincide context active bound (next value) (alsoNext value)) :
    Coincide context active bound (action >>= next) (also >>= alsoNext) := by
  intro first consistent started within
  obtain ⟨same, between, grows⟩ := earlier first consistent started within
  rw [outcome_bind, outcome_bind, same]
  cases ended : action.outcome first with | mk result middle => ?_
  rw [ended] at between grows
  cases result with
  | error located => exact ⟨rfl, between, grows⟩
  | ok value =>
    obtain ⟨alsoSame, after, further⟩ := later value middle between (grows.started started)
      ((Finset.card_le_card grows.waiting_subset).trans within)
    exact ⟨alsoSame, after, grows.trans further⟩

/-- What is done may depend on the workspace. -/
theorem reads {next alsoNext : Workspace → Synthesis α}
    (later : ∀ workspace, Coincide context active bound (next workspace) (alsoNext workspace)) :
    Coincide context active bound (get >>= next) (get >>= alsoNext) :=
  fun first consistent started within => later first first consistent started within

/-- Registering a shape coincides with itself. -/
theorem register (candidate : String) (shape : Shape) (doc : Option String) (deprecated : Bool)
    (path : String) : Coincide context active bound
      (Synthesis.register candidate shape doc deprecated (.inline path))
      (Synthesis.register candidate shape doc deprecated (.inline path)) :=
  self fun _ consistent => consistent.register candidate shape doc deprecated path

/-- Reports coincide with themselves. -/
theorem reports {action : Synthesis Unit}
    (notes : ∀ {first last result}, action.Ends first result last →
      result = .ok () ∧ first.Notes last) : Coincide context active bound action action :=
  self fun _ => (notes rfl).2.advances

/-- What is entered and expanded inside some surroundings and in others coincides. -/
structure Beside (context : Context) (active : List String) (bound : Nat)
    (outside other : Surroundings) : Prop where
  context_eq : outside.context = context
  alsoContext_eq : other.context = context
  muted_eq : other.muted = outside.muted
  enter : ∀ target, Coincide context active bound (liftM (outside.enter target) : Synthesis Unit)
    (liftM (other.enter target))
  expand : ∀ target path,
    Coincide context active bound (outside.expand target path) (other.expand target path)

namespace Beside

variable {outside other : Surroundings} (beside : Beside context active bound outside other)

include beside

/-- References coincide. -/
theorem reference (target : String) (scope : Scope) : Coincide context active bound
    (outside.reference target scope) (other.reference target scope) := by
  -- Looking up the target changes nothing, before it is entered and after.
  have resolves : other.resolve = outside.resolve := by
    funext target path
    simp only [Surroundings.resolve, beside.context_eq, beside.alsoContext_eq]
  have looks : Coincide context active bound (outside.resolve target scope.path)
      (outside.resolve target scope.path) :=
    unchanged fun first => by rw [outside.outcome_resolve]
  unfold Surroundings.reference
  simp only [resolves, beside.context_eq, beside.alsoContext_eq]
  refine looks.bind fun lookup => ?_
  cases lookup with
  | unvisited =>
    refine (beside.enter target).bind fun _ => looks.bind fun lookup => unchanged fun first => ?_
    split <;> rfl
  | ready name =>
    simp only [pure_bind]
    refine unchanged fun first => ?_
    split <;> rfl

/-- Whatever is done itself in the walk of a node coincides. -/
theorem correspondence : Correspondence outside other (fun _ => True) (fun _ => True)
    (fun _ => True) (fun _ => True) (Coincide context active bound) where
  maxArrayDepth_eq := by rw [beside.context_eq, beside.alsoContext_eq]
  maxItems_eq := by rw [beside.context_eq, beside.alsoContext_eq]
  leadsToChoice_eq _ := by rw [beside.context_eq, beside.alsoContext_eq]
  below _ := id
  pure _ := unchanged fun _ => rfl
  bind := bind
  fail _ _ _ := unchanged fun _ => rfl
  register _ _ _ _ _ := register _ _ _ _ _
  nameCase _ used later := by
    refine used.bind fun type => .bind ?_ fun name => later type name
    unfold Surroundings.nameMember
    split
    · exact unchanged fun _ => rfl
    · exact reads fun workspace => register _ _ _ _ _
  -- Merging reads the registry, but leaves it alone.
  combine inputs path _ := unchanged fun first =>
    ((ends_liftComposition_iff path (mergeAllOf inputs first.registry.equivalent)).mp rfl).2
  undeclared traits scope _ := by
    have same : other.reportUndeclared traits scope = outside.reportUndeclared traits scope := by
      rw [Surroundings.reportUndeclared, Surroundings.reportUndeclared, beside.muted_eq]
    rw [same]
    exact reports Surroundings.ends_reportUndeclared
  notes notes scope _ := by
    have same : other.reportNotes notes scope = outside.reportNotes notes scope := by
      rw [Surroundings.reportNotes, Surroundings.reportNotes, beside.muted_eq]
    rw [same]
    exact reports Surroundings.notes_of_reportNotes
  reference _ _ := beside.reference _ _
  merge _ _ _ later := (beside.reference _ _).bind fun type =>
    (beside.expand _ _).bind fun shape => later type shape
  take _ _ _ intersects := intersects.bind fun shape => by
    cases shape with
    | record | enum | union => exact unchanged fun _ => rfl
    | «alias» target =>
      refine reads fun workspace => ?_
      dsimp only
      split
      · exact beside.expand _ _
      · exact unchanged fun _ => rfl
      · exact unchanged fun _ => rfl

/-- The shapes of component schemas coincide. -/
theorem shapeWithin (node : SchemaNode) (scope : Scope) : Coincide context active bound
    (shapeWithin outside node scope) (shapeWithin other node scope) := by
  have walks := beside.correspondence.walk node (fun _ _ => trivial) fun _ _ => trivial
  unfold Synthesis.shapeWithin
  refine (walks.declare 0 trivial fun _ _ => trivial).bind fun shape => ?_
  rw [beside.context_eq, beside.alsoContext_eq]
  have checks : Coincide context active bound (checkAlias context scope shape)
      (checkAlias context scope shape) :=
    unchanged fun first => ((ends_checkAlias_iff context scope shape _).mp rfl).1
  exact checks.bind fun _ => unchanged fun _ => rfl

end Beside

end Coincide

namespace Recursion

variable {context : Context}

/-- How many schemas may still begin or be expanded. -/
def measure (context : Context) (expanding : List String) (workspace : Workspace) : Nat :=
  (workspace.waiting context).card + Search.remaining context.model.names expanding

/--
A recursion does inside a stack of expansions what synthesis does, as long as no more than a number of
schemas may begin or be expanded.
-/
def Reaches (context : Context) (bound : Nat) (recursion : Recursion) : Prop :=
  ∀ active expanding first, Consistent context first → Started active first →
    measure context expanding first < bound →
    (∀ name, (recursion.enter expanding name).run first =
      (enterWithin context active expanding name).run first) ∧
    ∀ name path, (recursion.expand expanding name path).outcome first =
      (expandWithin context active expanding name path).outcome first

/-- Inside a recursion that reaches far enough, the walks of nodes are those of synthesis. -/
theorem Reaches.beside {bound : Nat} {recursion : Recursion} (reaches : recursion.Reaches context bound)
    (active expanding : List String) (muted : Bool) {waiting : Nat}
    (isLess : waiting + Search.remaining context.model.names expanding < bound) :
    Coincide.Beside context active waiting (within context muted active expanding)
      (recursion.around context muted expanding) where
  context_eq := rfl
  alsoContext_eq := rfl
  muted_eq := rfl
  enter target := by
    -- What waits and what may still be expanded leave fewer levels than there are.
    intro first consistent started within
    have sound := sound_within context muted active expanding
    have same := (reaches active expanding first consistent started
      (by unfold measure; omega)).1 target
    refine ⟨?_, (sound.enter consistent started).consistent consistent⟩
    exact congrArg (fun ended : Unit × Workspace => (Except.ok ended.1, ended.2)) same
  expand target path := by
    intro first consistent started within
    have adequate := adequate_within context muted active expanding
    have same := (reaches active expanding first consistent started
      (by unfold measure; omega)).2 target path
    exact ⟨same, (adequate.expand target path first _ _ consistent started rfl).steps consistent
      |>.advances consistent⟩

/-- One more level reaches one schema further. -/
theorem Reaches.unfold {bound : Nat} {recursion : Recursion} (reaches : recursion.Reaches context bound) :
    (recursion.unfold context).Reaches context (bound + 1) := by
  intro active expanding first consistent started isLess
  constructor
  · intro name
    cases found : context.model.node? name with
    | none => simp only [Recursion.unfold, found, enterWithin_of_undefined found]
    | some node =>
      simp only [Recursion.unfold, found, enterWithin_of_defined found]
      by_cases isActive : name ∈ active
      · -- What is in progress has been started, so its state guards it as well.
        have notPending := started name isActive
        simp [isActive, notPending]
      · simp only [List.contains_iff_mem, isActive, if_false]
        by_cases pending : first.resolver.state name = .pending
        · have begins : ((first.begin name).waiting context).card + 1 ≤
              (first.waiting context).card :=
            Finset.card_lt_card (Workspace.waiting_begin found pending)
          have isLower : ((first.begin name).waiting context).card +
              Search.remaining context.model.names expanding < bound := by
            unfold measure at isLess
            omega
          have beside := reaches.beside (name :: active) expanding (!expanding.isEmpty) isLower
          obtain ⟨same, _⟩ := beside.shapeWithin node (first.scopeOf name) (first.begin name)
            (consistent.begin found pending) (started_begin started) (Nat.le_refl _)
          obtain ⟨result, inner, ends⟩ := (shapeWithin
            (within context (!expanding.isEmpty) (name :: active) expanding) node
              (first.scopeOf name)).exists_ends (first.begin name)
          have program := @run_declareComponent name node
            (shapeWithin (within context (!expanding.isEmpty) (name :: active) expanding) node) first
              inner result ends
          have unfolded := @run_declareComponent name node
            (shapeWithin (recursion.around context (!expanding.isEmpty) expanding) node) first inner
              result (same.trans ends)
          simpa [pending] using unfolded.trans program.symm
        · simp [pending]
  · intro name path
    rw [expandWithin_eq]
    simp only [Recursion.unfold]
    split
    · rfl
    · rename_i fresh
      cases found : context.model.node? name with
      | none => rfl
      | some node =>
        dsimp only
        split
        · rfl
        · have stacked := Search.remaining_cons_lt (context.model.mem_names found)
            (by simpa using fresh)
          have isLower : (first.waiting context).card +
              Search.remaining context.model.names (name :: expanding) < bound := by
            unfold measure at isLess
            omega
          have beside := reaches.beside active (name :: expanding) true isLower
          exact (beside.correspondence.expand node (fun _ _ => trivial) (fun _ _ => trivial)
            (fun _ _ => trivial) trivial (fun _ _ => trivial) first consistent started
              (Nat.le_refl _)).1

/-- Unfolded often enough, the recursion does what synthesis does, whatever stands at the bottom. -/
theorem reaches_iterate (bottom : Recursion) (levels : Nat) :
    ((unfold context)^[levels] bottom).Reaches context levels := by
  induction levels with
  | zero => exact fun _ _ _ _ _ isLess => absurd isLess (Nat.not_lt_zero _)
  | succ levels ih =>
    rw [Function.iterate_succ_apply']
    exact ih.unfold

end Recursion

end ApiTypes

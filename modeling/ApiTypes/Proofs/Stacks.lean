import ApiTypes.Proofs.Emission
import ApiTypes.Proofs.Synthesis.Adequacy
import ApiTypes.Proofs.Synthesis.OperationTraversal
import ApiTypes.Proofs.Synthesis.Traversal

/-!
The stacks of synthesis are disciplined. The component schemas in progress and those that are being expanded
stand on two stacks, and synthesis passes moments in which these list them. What is begun and what is
expanded comes off its stack again however it ends, so that whatever is called while the types of a document
are found leaves both stacks as it has found them, and in the end none are left.
-/

namespace ApiTypes

/-- How the state of a component schema may change. -/
inductive EntryState.Moves : EntryState → EntryState → Prop
  | begin : Moves .pending .resolving
  | register : Moves .resolving .registered
  | fail : Moves .resolving .failed

/-- A moment of synthesis: the workspace, and the stack of the schemas whose expansion is in progress. -/
structure Moment where
  workspace : Workspace
  /-- The component schemas that are being expanded, the innermost one first, as `within` is given them. -/
  expanding : List String

namespace Moment

/-- The stack of the component schemas in progress, the innermost one last. -/
def visiting (moment : Moment) : List String := moment.workspace.resolver.visiting

/-- The state of a component schema. -/
def state (moment : Moment) (schema : String) : EntryState := moment.workspace.resolver.state schema

/-- A component schema is put on the stack of expansions. -/
def push (moment : Moment) (schema : String) : Moment :=
  { moment with expanding := schema :: moment.expanding }

/-- Whatever is innermost is taken off the stack of expansions. -/
def pop (moment : Moment) : Moment := { moment with expanding := moment.expanding.tail }

/-- What is in progress is what is on the stack of the schemas in progress, each of them once. -/
structure ListsResolving (moment : Moment) : Prop where
  nodup : moment.visiting.Nodup
  mem_iff : ∀ schema, schema ∈ moment.visiting ↔ moment.state schema = .resolving

/-- From one moment to the next the states of the schemas stay or move on. -/
def MovesTo (first next : Moment) : Prop :=
  ∀ schema, next.state schema = first.state schema ∨
    (first.state schema).Moves (next.state schema)

end Moment

/--
How synthesis gets from one moment to another, and the single steps on the way. A schema that begins is
concluded, and one that is pushed is popped, with whatever is then in the workspace and on the stacks.
-/
inductive Passes (context : Context) : Moment → List (Moment × Moment) → Moment → Prop
  | stay (moment : Moment) : Passes context moment [] moment
  /-- A shape inside a schema gets a name. -/
  | register {moment next : Moment} (candidate : String) (shape : Shape) (doc : Option String)
    (deprecated : Bool) (path : String)
    (isNext : next = ⟨{ moment.workspace with
      registry := (moment.workspace.registry.register candidate shape doc deprecated
        (.inline path)).2 }, moment.expanding⟩) :
    Passes context moment [(moment, next)] next
  | report {moment next : Moment} (added : List Diagnostic)
    (isNext : next = ⟨{ moment.workspace with
      diagnostics := moment.workspace.diagnostics ++ added }, moment.expanding⟩) :
    Passes context moment [(moment, next)] next
  /-- A component schema is synthesized. -/
  | component {moment begun inner concluded : Moment} {steps : List (Moment × Moment)}
    {schema : String} {node : SchemaNode} (found : context.model.node? schema = some node)
    (pending : moment.state schema = .pending)
    (begins : begun = ⟨moment.workspace.begin schema, moment.expanding⟩)
    (inside : Passes context begun steps inner) (result : Except LocatedFailure Shape)
    (concludes : concluded = ⟨inner.workspace.conclude schema
      (moment.workspace.scopeOf schema).name node result, inner.expanding⟩) :
    Passes context moment ((moment, begun) :: steps ++ [(inner, concluded)]) concluded
  /-- A component schema is expanded. -/
  | expansion {moment inner : Moment} {steps : List (Moment × Moment)} {schema : String}
    {node : SchemaNode} (found : context.model.node? schema = some node)
    (fresh : schema ∉ moment.expanding) (inside : Passes context (moment.push schema) steps inner) :
    Passes context moment ((moment, moment.push schema) :: steps ++ [(inner, inner.pop)]) inner.pop
  | trans {first middle last : Moment} {steps more : List (Moment × Moment)}
    (earlier : Passes context first steps middle) (later : Passes context middle more last) :
    Passes context first (steps ++ more) last

namespace Moment

variable {moment next : Moment} {schema : String}

/-- Where the states and the schemas in progress stay, these are listed as before. -/
theorem ListsResolving.of_resolver_eq (lists : moment.ListsResolving)
    (same : next.workspace.resolver = moment.workspace.resolver) : next.ListsResolving where
  nodup := by simpa only [visiting, same] using lists.nodup
  mem_iff schema := by simpa only [visiting, state, same] using lists.mem_iff schema

/-- Where the states stay, none of them moves. -/
theorem MovesTo.of_resolver_eq (same : next.workspace.resolver = moment.workspace.resolver) :
    moment.MovesTo next :=
  fun schema => .inl (by simp only [state, same])

/-- A pending schema that begins is put on the stack of the schemas in progress. -/
theorem ListsResolving.begin (lists : moment.ListsResolving)
    (pending : moment.state schema = .pending) :
    ListsResolving ⟨moment.workspace.begin schema, moment.expanding⟩ where
  nodup := by
    have isNew : schema ∉ moment.visiting := fun isListed => by
      simpa [pending] using (lists.mem_iff schema).mp isListed
    exact List.nodup_append.mpr ⟨lists.nodup, List.nodup_singleton schema,
      fun other isListed another isSchema same =>
        isNew (List.mem_singleton.mp isSchema ▸ same ▸ isListed)⟩
  mem_iff other := by
    have listed := lists.mem_iff other
    simp only [visiting, state, Workspace.state_begin] at listed ⊢
    simp only [Workspace.begin, Resolver.start, List.mem_append, List.mem_singleton, listed]
    split <;> simp_all

/-- What begins is pending before and in progress afterwards. -/
theorem MovesTo.begin (pending : moment.state schema = .pending) :
    moment.MovesTo ⟨moment.workspace.begin schema, moment.expanding⟩ := by
  intro other
  simp only [state, Workspace.state_begin]
  split
  · rename_i isSchema
    have was : moment.workspace.resolver.state other = .pending := isSchema ▸ pending
    rw [was]
    exact .inr .begin
  · exact .inl rfl

/-- The schema that is innermost on the stack is taken off it when it is concluded. -/
theorem visiting_conclude {listed : List String} (isInnermost : moment.visiting = listed ++ [schema])
    (emitted : String) (node : SchemaNode) (result : Except LocatedFailure Shape) :
    (moment.workspace.conclude schema emitted node result).resolver.visiting = listed := by
  have erased : Resolver.eraseLast schema moment.workspace.resolver.visiting = listed := by
    rw [show moment.workspace.resolver.visiting = listed ++ [schema] from isInnermost]
    simp [Resolver.eraseLast]
  cases result <;> exact erased

/-- What is concluded is in progress no longer. -/
theorem ListsResolving.conclude (lists : moment.ListsResolving) {listed : List String}
    (isInnermost : moment.visiting = listed ++ [schema]) (emitted : String) (node : SchemaNode)
    (result : Except LocatedFailure Shape) :
    ListsResolving
      ⟨moment.workspace.conclude schema emitted node result, moment.expanding⟩ := by
  have same := visiting_conclude isInnermost emitted node result
  have distinct := isInnermost ▸ lists.nodup
  refine ⟨by simpa only [visiting, same] using (List.nodup_append.mp distinct).1, fun other => ?_⟩
  have listing := lists.mem_iff other
  rw [isInnermost, List.mem_append, List.mem_singleton] at listing
  simp only [visiting, state, same, Workspace.state_conclude] at listing ⊢
  split
  · rename_i isSchema
    have notListed : schema ∉ listed := fun isListed =>
      (List.nodup_append.mp distinct).2.2 schema isListed schema (List.mem_singleton_self _) rfl
    cases result <;> simp [isSchema, notListed]
  · rename_i isOther
    simpa [isOther] using listing

/-- What is concluded is in progress before, and registered or failed afterwards. -/
theorem MovesTo.conclude (resolving : moment.state schema = .resolving) (emitted : String)
    (node : SchemaNode) (result : Except LocatedFailure Shape) :
    moment.MovesTo
      ⟨moment.workspace.conclude schema emitted node result, moment.expanding⟩ := by
  intro other
  simp only [state, Workspace.state_conclude]
  split
  · rename_i isSchema
    have was : moment.workspace.resolver.state other = .resolving := isSchema ▸ resolving
    rw [was]
    cases result with
    | ok shape => exact .inr .register
    | error located => exact .inr .fail
  · exact .inl rfl

end Moment

/-- What is kept from one moment to another, and in every single step between them. -/
structure Balanced (first : Moment) (steps : List (Moment × Moment)) (last : Moment) : Prop where
  visiting_eq : last.visiting = first.visiting
  expanding_eq : last.expanding = first.expanding
  lists : last.ListsResolving
  steps : ∀ step ∈ steps, step.1.ListsResolving ∧ step.2.ListsResolving ∧ step.1.MovesTo step.2

/-- A step that leaves the states and the stacks alone is balanced. -/
theorem Balanced.single {first next : Moment} (lists : first.ListsResolving)
    (same : next.workspace.resolver = first.workspace.resolver)
    (expanding_eq : next.expanding = first.expanding) : Balanced first [(first, next)] next where
  visiting_eq := by simp only [Moment.visiting, same]
  expanding_eq := expanding_eq
  lists := lists.of_resolver_eq same
  steps := by simpa using ⟨lists, lists.of_resolver_eq same, .of_resolver_eq same⟩

/-- However synthesis gets from one moment to another, both stacks are then as they were. -/
theorem Passes.balanced {context : Context} {first last : Moment} {steps : List (Moment × Moment)}
    (passes : Passes context first steps last) (lists : first.ListsResolving) :
    Balanced first steps last := by
  -- What happens inside a schema starts with that schema on the stack, and so it ends with it there.
  induction passes with
  | stay moment => exact ⟨rfl, rfl, lists, by simp⟩
  | register _ _ _ _ _ isNext =>
    subst isNext
    exact .single lists rfl rfl
  | report _ isNext =>
    subst isNext
    exact .single lists rfl rfl
  | @component moment begun inner concluded steps schema node found pending begins inside result
      concludes ih =>
    subst begins concludes
    have begun := lists.begin pending
    have balanced := ih begun
    have isInnermost : inner.visiting = moment.visiting ++ [schema] := balanced.visiting_eq
    have resolving : inner.state schema = .resolving :=
      (balanced.lists.mem_iff schema).mp (by simp [isInnermost])
    have concluded := balanced.lists.conclude isInnermost (moment.workspace.scopeOf schema).name node
      result
    refine ⟨Moment.visiting_conclude isInnermost _ node result, balanced.expanding_eq, concluded, ?_⟩
    intro step isStep
    simp only [List.cons_append, List.mem_cons, List.mem_append, List.not_mem_nil, or_false] at isStep
    rcases isStep with rfl | isInside | rfl
    · exact ⟨lists, begun, .begin pending⟩
    · exact balanced.steps step isInside
    · exact ⟨balanced.lists, concluded, .conclude resolving _ node result⟩
  | @expansion moment inner steps schema node found fresh inside ih =>
    have pushed : (moment.push schema).ListsResolving := lists.of_resolver_eq rfl
    have balanced := ih pushed
    have popped : inner.pop.ListsResolving := balanced.lists.of_resolver_eq rfl
    have isInnermost : inner.expanding = schema :: moment.expanding := balanced.expanding_eq
    refine ⟨balanced.visiting_eq, by simp [Moment.pop, isInnermost], popped, fun step isStep => ?_⟩
    simp only [List.cons_append, List.mem_cons, List.mem_append, List.not_mem_nil, or_false] at isStep
    rcases isStep with rfl | isInside | rfl
    · exact ⟨lists, pushed, .of_resolver_eq rfl⟩
    · exact balanced.steps step isInside
    · exact ⟨balanced.lists, popped, .of_resolver_eq rfl⟩
  | trans _ _ ih laterIh =>
    have earlier := ih lists
    have later := laterIh earlier.lists
    exact ⟨later.visiting_eq.trans earlier.visiting_eq, later.expanding_eq.trans earlier.expanding_eq,
      later.lists, List.forall_mem_append.mpr ⟨earlier.steps, later.steps⟩⟩

/-- Inside a stack of expansions an action passes some moments, and leaves the stack as it was. -/
def PassesInside (context : Context) (expanding : List String) ⦃α : Type⦄ (action : Synthesis α) :
    Prop :=
  ∀ first last result, action.Ends first result last →
    ∃ steps, Passes context ⟨first, expanding⟩ steps ⟨last, expanding⟩

namespace PassesInside

variable {context : Context} {expanding : List String} {α β : Type}

/-- An action that changes nothing passes no other moment. -/
theorem unchanged {action : Synthesis α}
    (isSame : ∀ {first last result}, action.Ends first result last → last = first) :
    PassesInside context expanding action := by
  intro first last result ends
  cases isSame ends
  exact ⟨[], .stay _⟩

/-- Actions follow each other, unless the first one fails. -/
theorem bind {action : Synthesis α} {next : α → Synthesis β}
    (earlier : PassesInside context expanding action)
    (later : ∀ value, PassesInside context expanding (next value)) :
    PassesInside context expanding (action >>= next) := by
  intro first last result ends
  rcases (Synthesis.ends_bind_iff _ _).mp ends with ⟨error, rfl, fails⟩ | ⟨value, middle, acts, goesOn⟩
  · exact earlier _ _ _ fails
  · obtain ⟨steps, passes⟩ := earlier _ _ _ acts
    obtain ⟨more, goesOn⟩ := later value _ _ _ goesOn
    exact ⟨steps ++ more, passes.trans goesOn⟩

/-- What is done may depend on the workspace. -/
theorem reads {next : Workspace → Synthesis α}
    (later : ∀ workspace, PassesInside context expanding (next workspace)) :
    PassesInside context expanding (get >>= next) :=
  fun first _ _ ends => later first _ _ _ ends

/-- An action may add diagnostics. -/
theorem reports {action : Synthesis α} (added : Workspace → List Diagnostic)
    (reports : ∀ {first last result}, action.Ends first result last →
      last = { first with diagnostics := first.diagnostics ++ added first }) :
    PassesInside context expanding action :=
  fun first _ _ ends => ⟨_, .report (added first) (by rw [reports ends])⟩

/-- Notes are diagnostics that are added. -/
theorem notes {action : Synthesis Unit}
    (notes : ∀ {first last result}, action.Ends first result last →
      result = .ok () ∧ first.Notes last) : PassesInside context expanding action := by
  intro first last result ends
  obtain ⟨_, changed⟩ := notes ends
  obtain ⟨added, isAdded⟩ := changed.diagnostics
  obtain ⟨resolver, registry, diagnostics⟩ := last
  cases changed.resolver_eq
  cases changed.registry_eq
  cases isAdded
  exact ⟨_, .report added rfl⟩

/-- Registering a shape is a step. -/
theorem register (candidate : String) (shape : Shape) (doc : Option String) (deprecated : Bool)
    (path : String) : PassesInside context expanding
      (Synthesis.register candidate shape doc deprecated (.inline path)) := by
  intro first last result ends
  obtain ⟨_, rfl⟩ := (Synthesis.ends_register_iff _ _ _ _ _).mp ends
  exact ⟨_, .register candidate shape doc deprecated path rfl⟩

variable (outside : Surroundings)
  (enters : ∀ target, PassesInside context expanding (liftM (outside.enter target) : Synthesis Unit))
  (expands : ∀ target path, PassesInside context expanding (outside.expand target path))

include enters

/-- A reference enters its target at most. -/
theorem reference (target : String) (scope : Scope) :
    PassesInside context expanding (outside.reference target scope) := by
  intro first last result ends
  have entered : ∃ steps, Passes context ⟨first, expanding⟩ steps
      ⟨outside.entered target first, expanding⟩ := by
    unfold Surroundings.entered
    split
    · exact enters target _ _ _ ((Synthesis.ends_lift_iff _).mpr ⟨rfl, rfl⟩)
    · exact ⟨[], .stay _⟩
  cases outside.referenceEnds ends with
  | undefined => exact ⟨[], .stay _⟩
  | ready | unready => exact entered

include expands

/-- Whatever is done itself in the walk of a node passes moments. -/
theorem traversal : Traversal outside (fun _ => True) (fun _ => True) (fun _ => True)
    (PassesInside context expanding) where
  -- What touches neither stack leaves both as they are; references and expansions are the hypotheses.
  below _ := id
  pure value := unchanged fun ends => ((Synthesis.ends_pure_iff value).mp ends).2
  bind := bind
  registry later := reads fun workspace => later workspace.registry
  fail failure _ _ := unchanged fun ends => ((Synthesis.ends_fail_iff _ failure).mp ends).2
  register := register
  undeclared _ _ _ := notes Surroundings.ends_reportUndeclared
  notes _ _ _ := notes Surroundings.notes_of_reportNotes
  reference _ _ := reference outside enters _ _
  merge _ _ _ later :=
    (reference outside enters _ _).bind fun type => (expands _ _).bind (later type)
  take _ _ _ intersects := intersects.bind fun shape => by
    cases shape with
    | record | enum | union =>
      exact unchanged fun ends => ((Synthesis.ends_pure_iff _).mp ends).2
    | «alias» target =>
      refine reads fun workspace => ?_
      dsimp only
      split
      · exact expands _ _
      · exact unchanged fun ends => ((Synthesis.ends_pure_iff _).mp ends).2
      · exact unchanged fun ends => ((Synthesis.ends_pure_iff _).mp ends).2

/-- Finding the shape of a component schema passes moments. -/
theorem shapeWithin (node : SchemaNode) (scope : Scope) :
    PassesInside context expanding (Synthesis.shapeWithin outside node scope) := by
  have walks := (traversal outside enters expands).walk node (fun _ _ => trivial) fun _ _ => trivial
  unfold Synthesis.shapeWithin
  refine (walks.declare 0 trivial).bind fun shape => ?_
  have checks : PassesInside context expanding (Synthesis.checkAlias outside.context scope shape) :=
    unchanged fun ends => ((Synthesis.ends_checkAlias_iff _ _ _ _).mp ends).1
  exact checks.bind fun _ => unchanged fun ends => ((Synthesis.ends_pure_iff _).mp ends).2

end PassesInside

namespace Synthesis

/-- Entering and expanding component schemas passes moments, inside whatever is in progress. -/
theorem passesInside_within (context : Context) (active expanding : List String) :
    (∀ schema, PassesInside context expanding
      (liftM (enterWithin context active expanding schema) : Synthesis Unit)) ∧
    ∀ schema path, PassesInside context expanding
      (expandWithin context active expanding schema path) := by
  -- The induction is on the schemas that are neither in progress nor expanded.
  induction active, expanding using withinInduction context.model with
  | step active expanding inside expansion =>
    constructor
    · intro schema first last result ends
      obtain ⟨_, rfl⟩ := (ends_lift_iff _).mp ends
      rcases enterWithin_cases context active expanding schema first with
        ⟨isSame, _⟩ | ⟨node, result, inner, found, fresh, pending, declares, isLast⟩
      · rw [isSame]
        exact ⟨[], .stay _⟩
      · obtain ⟨enters, expands⟩ := inside schema node found fresh
        obtain ⟨steps, passes⟩ := PassesInside.shapeWithin
          (within context (!expanding.isEmpty) (schema :: active) expanding) enters expands node _ _ _ _
          declares
        exact ⟨_, .component found pending rfl passes result (by rw [isLast])⟩
    · intro schema path first last result ends
      rcases expandWithin_cases ends with ⟨_, _, rfl⟩ | ⟨_, _, rfl⟩ |
        ⟨node, found, fresh, ⟨_, _, rfl⟩ | ⟨_, walks⟩⟩
      · exact ⟨[], .stay _⟩
      · exact ⟨[], .stay _⟩
      · exact ⟨[], .stay _⟩
      · obtain ⟨enters, expands⟩ := expansion schema node found fresh
        have traversal := PassesInside.traversal (within context true active (schema :: expanding))
          enters expands
        obtain ⟨steps, passes⟩ := traversal.expand node (fun _ _ => trivial) (fun _ _ => trivial)
          (fun _ _ => trivial) trivial _ _ _ walks
        have pushed : Passes context (Moment.push ⟨first, expanding⟩ schema) steps
          ⟨last, schema :: expanding⟩ := passes
        exact ⟨_, pushed.expansion found fresh⟩

/-- Whatever is done itself in a walk inside schemas in progress and expansions passes moments. -/
theorem traversal_within (context : Context) (muted : Bool) (active expanding : List String) :
    Traversal (within context muted active expanding) (fun _ => True) (fun _ => True)
      (fun _ => True) (PassesInside context expanding) :=
  have ⟨enters, expands⟩ := passesInside_within context active expanding
  PassesInside.traversal _ enters expands

end Synthesis

/-- What synthesis may be called for inside a component schema, an operation or an intersection. -/
inductive Call where
  | entry (schema : String)
  | expression (node : SchemaNode) (scope : Scope) (depth : Nat)
  | intersection (nodes : List SchemaNode) (scope : Scope) (depth : Nat)
  | expansion (schema path : String)

namespace Call

/-- What is done in a call, while some schemas are in progress and some are being expanded. -/
def action (context : Context) (active expanding : List String) : Call → Synthesis Unit
  | entry schema => liftM (Synthesis.enterWithin context active expanding schema)
  | expression node scope depth => do
    let outside := Synthesis.within context (!expanding.isEmpty) active expanding
    let _ ← (outside.walk node).expression scope depth
  | intersection nodes scope depth => do
    let outside := Synthesis.within context (!expanding.isEmpty) active expanding
    let _ ← outside.intersection (nodes.map outside.walked) scope depth
  | expansion schema path => do
    let _ ← Synthesis.expandWithin context active expanding schema path

/-- Every call passes moments, and leaves the stack of expansions as it was. -/
theorem passesInside (call : Call) (context : Context) (active expanding : List String) :
    PassesInside context expanding (call.action context active expanding) := by
  have ⟨enters, expands⟩ := Synthesis.passesInside_within context active expanding
  have traversal := Synthesis.traversal_within context (!expanding.isEmpty) active expanding
  have ends : PassesInside context expanding (pure () : Synthesis Unit) := traversal.pure ()
  -- An action that gives a value is followed by an end, as calls give none.
  cases call with
  | entry schema => exact enters schema
  | expression node scope depth =>
    have walks := traversal.walk node (fun _ _ => trivial) fun _ _ => trivial
    exact (walks.expression depth trivial).bind fun _ => ends
  | intersection nodes scope depth =>
    refine PassesInside.bind ?_ fun _ => ends
    exact (traversal.correspondence.intersection trivial depth (fun _ _ _ _ => trivial)
      (fun _ _ _ _ => trivial) (fun _ _ _ _ _ => trivial) fun node _ => Traversal.walksRelate
        (traversal.walk node (fun _ _ => trivial) fun _ _ => trivial)).2
  | expansion schema path => exact (expands schema path).bind fun _ => ends

end Call

/-- Before synthesis starts, no component schema is in progress. -/
theorem Workspace.visiting_ofContext (context : Context) :
    (ofContext context).resolver.visiting = [] :=
  holds_ofContext (fun workspace => workspace.resolver.visiting = []) context rfl fun _ _ => id

namespace Synthesis

variable {context : Context}

/-- Entering component schemas one after the other passes moments. -/
theorem passes_forM_enter (context : Context) (names : List String) (first : Workspace) :
    ∃ steps, Passes context ⟨first, []⟩ steps ⟨((names.forM (enter context)).run first).2, []⟩ := by
  induction names generalizing first with
  | nil => exact ⟨[], .stay _⟩
  | cons name rest ih =>
    have entered : ((liftM (enter context name) : Synthesis Unit)).Ends first (.ok ())
        ((enter context name).run first).2 := (ends_lift_iff _).mpr ⟨rfl, rfl⟩
    obtain ⟨steps, passes⟩ := (passesInside_within context [] []).1 name _ _ _ entered
    obtain ⟨more, goesOn⟩ := ih ((enter context name).run first).2
    exact ⟨steps ++ more, passes.trans goesOn⟩

/-- Binding an operation passes moments, outside of all component schemas. -/
theorem bindingTraversal_passesInside (context : Context) :
    BindingTraversal context (fun _ => True) (PassesInside context []) where
  pure := (traversal_within context false [] []).pure
  bind := .bind
  found found := .unchanged fun {first _ _} ends => by
    have isLast : (liftM found : Synthesis _).outcome first = (found, first) := by
      cases found <;> rfl
    exact ((ends_iff_of_outcome isLast).mp ends).2
  schemaType {schema} candidate path _ _ := by
    have lowers : PassesInside context [] (modify fun workspace =>
        { workspace with diagnostics := workspace.diagnostics ++
          (schema.lower context.model.version path).collect.2 } : Synthesis Unit) :=
      .reports (fun _ => _) fun ends => ((ends_modify_iff _).mp ends).2
    have walks := (traversal_within context false [] []).walk
      (schema.lower context.model.version path).collect.1 (fun _ _ => trivial) fun _ _ => trivial
    exact lowers.bind fun _ => walks.expression 0 trivial

/-- Binding the operations of all paths passes moments. -/
theorem passes_bindPaths (context : Context) (components : Components)
    (paths : List (String × PathItem)) (first : Workspace) :
    ∃ steps, Passes context ⟨first, []⟩ steps
      ⟨((bindPaths context components paths).run first).2, []⟩ := by
  refine bindPaths_preserves
    (fun workspace => ∃ steps, Passes context ⟨first, []⟩ steps ⟨workspace, []⟩)
    (fun path _ entry _ passed ends => ?_) (fun located passed => ?_) ⟨[], .stay _⟩
  · obtain ⟨steps, passes⟩ := passed
    obtain ⟨more, goesOn⟩ := (bindingTraversal_passesInside context).bindOperation
      (fun _ _ => trivial) entry.1 path.1 (fun _ _ _ _ => trivial) (fun _ _ => trivial) _ _ _ ends
    exact ⟨steps ++ more, passes.trans goesOn⟩
  · obtain ⟨steps, passes⟩ := passed
    exact ⟨_, passes.trans (.report [⟨located.path, .failed located.failure⟩] rfl)⟩

end Synthesis

/-- A moment that is passed: the first one, or one that a step leads to. -/
def Moment.IsPassed (moment first : Moment) (steps : List (Moment × Moment)) : Prop :=
  moment = first ∨ ∃ step ∈ steps, moment = step.2

/-- In every moment that is passed the schemas in progress are listed. -/
theorem Balanced.lists_of_isPassed {first last moment : Moment} {steps : List (Moment × Moment)}
    (balanced : Balanced first steps last) (lists : first.ListsResolving)
    (isPassed : moment.IsPassed first steps) : moment.ListsResolving := by
  rcases isPassed with rfl | ⟨step, isStep, rfl⟩
  · exact lists
  · exact (balanced.steps step isStep).2.1

/-- Whatever a call gives, it passes moments, and leaves both stacks as they were. -/
theorem Call.balanced (call : Call) (context : Context) (active : List String) {moment : Moment}
    (lists : moment.ListsResolving) {result : Except LocatedFailure Unit} {workspace : Workspace}
    (ends : (call.action context active moment.expanding).Ends moment.workspace result workspace) :
    ∃ steps after, Passes context moment steps after ∧ after.workspace = workspace ∧
      Balanced moment steps after := by
  obtain ⟨steps, passes⟩ := call.passesInside context active moment.expanding _ _ _ ends
  exact ⟨steps, _, passes, rfl, passes.balanced lists⟩

namespace Document

variable (document : Document) (config : Config)

/-- The moment in which synthesis starts. -/
def beginning : Moment := ⟨Workspace.ofContext (document.context config), []⟩

/-- In the beginning nothing is in progress. -/
theorem listsResolving_beginning : (document.beginning config).ListsResolving where
  nodup := by simp [beginning, Moment.visiting, Workspace.visiting_ofContext]
  mem_iff schema := by
    simp [beginning, Moment.visiting, Moment.state, Workspace.visiting_ofContext,
      Workspace.state_ofContext]

/-- All component schemas are synthesized on the way from the beginning. -/
theorem passes_entered : ∃ steps, Passes (document.context config) (document.beginning config) steps
    ⟨document.entered config, []⟩ :=
  Synthesis.passes_forM_enter (document.context config) (document.context config).model.names _

/-- The operations are bound on the way from there to the end. -/
theorem passes_unfinished : ∃ steps, Passes (document.context config)
    ⟨document.entered config, []⟩ steps ⟨document.unfinished config, []⟩ := by
  unfold unfinished
  rw [document.run_bindAll config]
  split
  · exact Synthesis.passes_bindPaths _ _ _ _
  · exact ⟨[], .stay _⟩

/-- Once all component schemas are synthesized, none of them is in progress. -/
theorem visiting_entered : (document.entered config).resolver.visiting = [] ∧
    ∀ schema, (document.entered config).resolver.state schema ≠ .resolving := by
  obtain ⟨steps, passes⟩ := document.passes_entered config
  have balanced := passes.balanced (document.listsResolving_beginning config)
  have isEmpty : (document.entered config).resolver.visiting = [] :=
    balanced.visiting_eq.trans (Workspace.visiting_ofContext _)
  refine ⟨isEmpty, fun schema isResolving => ?_⟩
  have isListed : schema ∈ (document.entered config).resolver.visiting :=
    (balanced.lists.mem_iff schema).mpr isResolving
  exact List.not_mem_nil (isEmpty ▸ isListed)

/--
From its beginning to its end synthesis passes moments in which the stack of the schemas in progress
lists these, each once, and in single steps in which the states move on. Whatever is called in such a
moment leaves both stacks as they were, with a result or with an error. When all component schemas have
been synthesized, both stacks are empty, and every schema is registered or has failed.

The two stacks are kept in different ways. The schemas in progress are listed in the workspace, and what is
proved of them is that the list is put back on every way out. The schemas in expansion are an argument of
`Synthesis.within`: an expansion is pushed for the one walk that it calls and is gone when that returns, so
that this stack is balanced by construction, as it would be with a push and a pop around that one call.
-/
theorem stacks_disciplined :
    (∃ steps, Passes (document.context config) (document.beginning config) steps
      ⟨document.entered config, []⟩) ∧
    (∃ steps, Passes (document.context config) ⟨document.entered config, []⟩ steps
      ⟨document.unfinished config, []⟩) ∧
    (∀ steps last, Passes (document.context config) (document.beginning config) steps last →
      Balanced (document.beginning config) steps last ∧
      ∀ moment : Moment, moment.IsPassed (document.beginning config) steps →
        ∀ (call : Call) active result workspace,
          (call.action (document.context config) active moment.expanding).Ends moment.workspace result
            workspace →
          ∃ between after, Passes (document.context config) moment between after ∧
            after.workspace = workspace ∧ Balanced moment between after) ∧
    (document.entered config).resolver.visiting = [] ∧
    ∀ schema ∈ document.schemas.keys, (document.entered config).resolver.state schema = .registered ∨
      (document.entered config).resolver.state schema = .failed := by
  have lists := document.listsResolving_beginning config
  have ⟨isEmpty, notResolving⟩ := document.visiting_entered config
  refine ⟨document.passes_entered config, document.passes_unfinished config,
    fun steps last passes => ?_, isEmpty, fun schema isSchema => ?_⟩
  · have balanced := passes.balanced lists
    exact ⟨balanced, fun moment isPassed call active result workspace ends =>
      call.balanced _ active (balanced.lists_of_isPassed lists isPassed) ends⟩
  · have started := (document.runs_entered config).2 schema (by rwa [document.names_context config])
    cases state : (document.entered config).resolver.state schema with
    | pending => exact absurd state started
    | resolving => exact absurd state (notResolving schema)
    | registered => exact .inl rfl
    | failed => exact .inr rfl

end Document

end ApiTypes

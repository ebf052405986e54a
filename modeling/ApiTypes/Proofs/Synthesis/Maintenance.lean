import ApiTypes.Proofs.Synthesis.Inclusion
import ApiTypes.Proofs.Synthesis.Traversal

/-!
Invariants of walks, and where walks fail. What an action maintains is composed of what its steps do, so
that a traversal needs to know only the single steps.
-/

namespace ApiTypes

/--
Inside active schemas, and given something of the first workspace, an action maintains an invariant of
consistent workspaces and fails only as allowed where it ends.
-/
def MaintainsGiven (context : Context) (active : List String) (given invariant : Workspace → Prop)
    (allows : Workspace → LocatedFailure → Prop) ⦃α : Type⦄ (action : Synthesis α) : Prop :=
  ∀ first last result, Consistent context first → Started active first → given first →
    invariant first → action.Ends first result last → Consistent context last ∧ Grows first last ∧
      invariant last ∧ ∀ located, result = .error located → allows last located

/-- Inside active schemas, an action maintains an invariant and fails only as allowed. -/
def Maintains (context : Context) (active : List String) (invariant : Workspace → Prop)
    (allows : Workspace → LocatedFailure → Prop) ⦃α : Type⦄ (action : Synthesis α) : Prop :=
  MaintainsGiven context active (fun _ => True) invariant allows action

section

variable {context : Context} {active : List String} {given invariant : Workspace → Prop}
  {allows : Workspace → LocatedFailure → Prop} {α β : Type}

namespace MaintainsGiven

/-- Actions follow each other, the second with what is known after the first. -/
theorem bindKnowing {action : Synthesis α} {next : α → Synthesis β}
    (known : α → Workspace → Prop)
    (earlier : MaintainsGiven context active given invariant allows action)
    (gives : ∀ first value middle, Consistent context first → Started active first →
      action.Ends first (.ok value) middle → known value middle)
    (later : ∀ value,
      MaintainsGiven context active (known value) invariant allows (next value)) :
    MaintainsGiven context active given invariant allows (action >>= next) := by
  intro first last result consistent started isGiven holds ends
  rcases (Synthesis.ends_bind_iff _ _).mp ends with ⟨error, rfl, fails⟩ | ⟨value, middle, acts, goesOn⟩
  · obtain ⟨after, grows, held, isPlace⟩ := earlier _ _ _ consistent started isGiven holds fails
    refine ⟨after, grows, held, fun located isError => ?_⟩
    cases isError
    exact isPlace error rfl
  · obtain ⟨between, grows, held, _⟩ := earlier _ _ _ consistent started isGiven holds acts
    obtain ⟨after, further, isHeld, fails⟩ := later value _ _ _ between (grows.started started)
      (gives _ _ _ consistent started acts) held goesOn
    exact ⟨after, grows.trans further, isHeld, fails⟩

/-- Actions follow each other. -/
theorem bind {action : Synthesis α} {next : α → Synthesis β}
    (earlier : MaintainsGiven context active given invariant allows action)
    (later : ∀ value, Maintains context active invariant allows (next value)) :
    MaintainsGiven context active given invariant allows (action >>= next) :=
  earlier.bindKnowing (fun _ _ => True) (fun _ _ _ _ _ _ => trivial) later

end MaintainsGiven

namespace Maintains

/-- What is maintained in any case is maintained if more is given. -/
theorem inAnyCase {action : Synthesis α}
    (maintains : Maintains context active invariant allows action) :
    MaintainsGiven context active given invariant allows action :=
  fun _ _ _ consistent started _ => maintains _ _ _ consistent started trivial

/-- More failures may be allowed. -/
theorem mono {action : Synthesis α} {more : Workspace → LocatedFailure → Prop}
    (maintains : Maintains context active invariant allows action)
    (included : ∀ last located, invariant last → allows last located → more last located) :
    Maintains context active invariant more action := by
  intro first last result consistent started isGiven holds ends
  obtain ⟨after, grows, held, fails⟩ := maintains _ _ _ consistent started isGiven holds ends
  exact ⟨after, grows, held, fun located isError => included _ _ held (fails located isError)⟩

/-- Returning a value changes nothing. -/
theorem pure (value : α) : Maintains context active invariant allows (pure value : Synthesis α) := by
  intro first last result consistent started _ holds ends
  obtain ⟨rfl, rfl⟩ := (Synthesis.ends_pure_iff value).mp ends
  exact ⟨consistent, .refl _, holds, nofun⟩

/-- An action may fail as allowed. -/
theorem fail {path : String} {failure : Failure}
    (isAllowed : ∀ last, invariant last → allows last ⟨path, failure⟩) :
    Maintains context active invariant allows (Synthesis.fail path failure : Synthesis α) := by
  intro first last result consistent started _ holds ends
  obtain ⟨rfl, rfl⟩ := (Synthesis.ends_fail_iff path failure).mp ends
  refine ⟨consistent, .refl _, holds, fun located isError => ?_⟩
  cases isError
  exact isAllowed _ holds

/-- Reading the registry changes nothing. -/
theorem registry {next : Registry → Synthesis α}
    (later : ∀ registry, Maintains context active invariant allows (next registry)) :
    Maintains context active invariant allows (get >>= fun workspace => next workspace.registry) :=
  fun first _ _ consistent started isGiven holds ends =>
    later first.registry _ _ _ consistent started isGiven holds ends

/-- Registering a shape maintains what no registration changes. -/
theorem register
    (stable : ∀ {first last : Workspace} {shape name}, first.Registers shape name last →
      invariant first → invariant last)
    (candidate : String) (shape : Shape) (doc : Option String) (deprecated : Bool) (path : String) :
    Maintains context active invariant allows
      (Synthesis.register candidate shape doc deprecated (.inline path)) := by
  intro first last result consistent started _ holds ends
  obtain ⟨rfl, rfl⟩ := (Synthesis.ends_register_iff candidate shape doc deprecated _).mp ends
  have ⟨after, grows⟩ := consistent.register candidate shape doc deprecated path
  exact ⟨after, grows, stable ⟨candidate, doc, deprecated, path, rfl, rfl⟩ holds, nofun⟩

/-- Reports maintain what they do not change. -/
theorem reports {action : Synthesis Unit}
    (notes : ∀ {first last result}, action.Ends first result last →
      result = .ok () ∧ first.Notes last)
    (stable : ∀ {first last}, action.Ends first (.ok ()) last → invariant first → invariant last) :
    Maintains context active invariant allows action := by
  intro first last result consistent started _ holds ends
  obtain ⟨rfl, changed⟩ := notes ends
  have ⟨after, grows⟩ := changed.advances consistent
  exact ⟨after, grows, stable ends holds, nofun⟩

variable {outside : Surroundings} {expanding : List String}

/-- A reference fails by itself, or does nothing but enter its target unless that has been started. -/
theorem reference (adequate : outside.Adequate context active expanding) {target : String}
    (scope : Scope)
    (undefined : ∀ last, invariant last → allows last ⟨scope.path, .undefinedReference target⟩)
    (unready : ∀ last, invariant last → allows last ⟨scope.path, .dependencyFailed target⟩)
    (enter : ∀ first, Consistent context first → Started active first →
      first.resolver.state target = .pending → invariant first →
        invariant ((outside.enter target).run first).2) :
    Maintains context active invariant allows (outside.reference target scope) := by
  intro first last result consistent started _ holds ends
  have comes := adequate.reference target scope _ _ _ consistent started ends
  have ⟨after, grows⟩ := Comes.advances comes consistent
  have entered : invariant (outside.entered target first) := by
    unfold Surroundings.entered
    split
    · exact enter first consistent started ‹_› holds
    · exact holds
  -- An undefined target is not entered.
  cases outside.referenceEnds ends with
  | undefined =>
    exact ⟨after, grows, holds, fun located isError => by cases isError; exact undefined _ holds⟩
  | ready => exact ⟨after, grows, entered, nofun⟩
  | unready =>
    exact ⟨after, grows, entered, fun located isError => by cases isError; exact unready _ entered⟩

/-- The shape of a component schema is what its node declares, if it is not circular. -/
theorem shapeWithin {node : SchemaNode} {scope : Scope}
    (circular : ∀ last schema, invariant last → allows last ⟨scope.path, .circularAlias schema⟩)
    (declares : Maintains context active invariant allows ((outside.walk node).declare scope 0)) :
    Maintains context active invariant allows (Synthesis.shapeWithin outside node scope) := by
  refine declares.bind fun shape => MaintainsGiven.bind ?_ fun _ => pure shape
  intro first last result consistent started _ holds ends
  obtain ⟨rfl, isResult⟩ := (Synthesis.ends_checkAlias_iff _ _ _ _).mp ends
  refine ⟨consistent, .refl _, holds, fun located isError => ?_⟩
  rw [isError] at isResult
  split at isResult
  · cases isResult
  · cases isResult
    exact circular _ _ holds

/-- What is merged is ready when it is expanded. -/
theorem merge (adequate : outside.Adequate context active expanding) {target : String} {scope : Scope}
    (reference : Maintains context active invariant allows (outside.reference target scope))
    (expand : MaintainsGiven context active (fun workspace => workspace.Ready target) invariant allows
      (outside.expand target scope.path))
    {next : TypeExpr → MemberShape → Synthesis α}
    (later : ∀ type shape, Maintains context active invariant allows (next type shape)) :
    Maintains context active invariant allows (do
      let type ← outside.reference target scope
      let shape ← outside.expand target scope.path
      next type shape) := by
  refine reference.bindKnowing (fun _ workspace => workspace.Ready target)
    (fun first type middle consistent started ends => ?_) fun type => expand.bind (later type)
  have looked : Yields context expanding first (.reference target) (.type type) middle :=
    adequate.reference target scope _ _ _ consistent started ends
  exact looked.ready_reference

/-- What a nested intersection stands for is ready when it is expanded, or atomic. -/
theorem take (adequate : outside.Adequate context active expanding) {members : List SchemaNode}
    {scope : Scope} {depth : Nat}
    (intersects : Maintains context active invariant allows
      (outside.intersection (members.map outside.walked) scope depth))
    (expand : ∀ member ∈ members, ∀ target schema, member.Includes target →
      Relation.ReflTransGen context.Includes target schema →
      MaintainsGiven context active (fun workspace => workspace.Ready schema) invariant allows
        (outside.expand schema scope.path))
    (atomic : ∀ schema, context.IsAtomic schema →
      Maintains context active invariant allows (outside.expand schema scope.path)) :
    Maintains context active invariant allows (do
      outside.contributionOf (← outside.intersection (members.map outside.walked) scope depth)
        scope) := by
  -- What the shape names has to be known when it is expanded, so it is carried along.
  refine intersects.bindKnowing (fun shape workspace =>
    ∀ type, shape = .alias type → Taken context workspace (.intersection members depth) type)
    (fun first shape middle consistent started ends type isAlias => ?_) fun shape => ?_
  · have walks : ∀ node ∈ members, Surroundings.WalkFollows context active expanding node
        (outside.walk node) := fun node _ => adequate.walkFollows node
    have yields : Yields context expanding first (.intersection members depth) (.shape shape) middle :=
      adequate.follows_intersection walks scope depth _ _ _ consistent started ends
    subst isAlias
    exact yields.taken consistent
  · cases shape with
    | record | enum | union => exact inAnyCase (pure _)
    | «alias» type =>
      intro first last result consistent started known holds ends
      have chooses := Surroundings.ends_of_get ends
      rw [consistent.schemas_eq] at chooses
      dsimp only at chooses
      -- Only the name of a schema is expanded, and only if the type does not admit null.
      split at chooses
      · rename_i schema named _
        rcases known type rfl schema named with
          ⟨⟨target, ⟨member, isMember, includes⟩, chain⟩, ready⟩ | isAtomic
        · exact expand member isMember target schema includes chain _ _ _ consistent started ready
            holds chooses
        · exact atomic schema isAtomic _ _ _ consistent started trivial holds chooses
      · exact pure _ _ _ _ consistent started trivial holds chooses
      · exact pure _ _ _ _ consistent started trivial holds chooses

/-- An invariant is maintained by walks if registrations, reports, references and expansions do. -/
theorem traversal (adequate : outside.Adequate context active expanding)
    {inside uses merges : String → Prop}
    (below : ∀ {path : String} (rest : String), inside path → inside (path ++ "/" ++ rest))
    (own : ∀ {last path failure}, failure.isOwn = true → inside path → invariant last →
      allows last ⟨path, failure⟩)
    (registers : ∀ {first last : Workspace} {shape name}, first.Registers shape name last →
      invariant first → invariant last)
    (undeclared : ∀ {traits : NodeTraits} {scope : Scope} {first last : Workspace},
      inside scope.path → (outside.reportUndeclared traits scope).Ends first (.ok ()) last →
      invariant first → invariant last)
    (notes : ∀ {notes : List MergeNote} {scope : Scope} {first last : Workspace},
      inside scope.path → (outside.reportNotes notes scope).Ends first (.ok ()) last →
      invariant first → invariant last)
    (reference : ∀ {target scope}, uses target → inside scope.path →
      Maintains context active invariant allows (outside.reference target scope))
    (expand : ∀ {target schema path}, uses target → merges target →
      Relation.ReflTransGen context.Includes target schema → inside path →
      MaintainsGiven context active (fun workspace => workspace.Ready schema) invariant allows
        (outside.expand schema path))
    (atomic : ∀ {schema path}, context.IsAtomic schema → inside path →
      Maintains context active invariant allows (outside.expand schema path)) :
    Traversal outside inside uses merges (Maintains context active invariant allows) where
  below := below
  pure := pure
  bind := MaintainsGiven.bind
  registry := registry
  fail _ isOwn isPlace := fail fun _ => own isOwn isPlace
  register := register registers
  undeclared _ _ isPlace := reports Surroundings.ends_reportUndeclared (undeclared isPlace)
  notes _ _ isPlace := reports Surroundings.notes_of_reportNotes (notes isPlace)
  reference := reference
  merge isUsed isMerged isPlace later :=
    merge adequate (reference isUsed isPlace) (expand isUsed isMerged .refl isPlace) later
  take refers includes isPlace intersects :=
    take adequate intersects (fun member isMember target _ isIncluded chain =>
      expand (refers member isMember target isIncluded.refers)
        (includes member isMember target isIncluded) chain isPlace)
      fun _ isAtomic => atomic isAtomic isPlace

end Maintains

end

end ApiTypes

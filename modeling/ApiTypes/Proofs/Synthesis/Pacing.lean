import ApiTypes.Proofs.MergedMembers
import ApiTypes.Proofs.Synthesis.Abreast
import ApiTypes.Proofs.Synthesis.Concurrence

/-!
Keeping pace. Two actions that start from workspaces abreast end in the same way, in workspaces abreast;
one of them may do more for members of intersections that place no restriction.
-/

namespace ApiTypes

open Relation

/--
Workspaces abreast of which the first one knows all that is mentioned in it, and has registered all to which
what it has registered refers.
-/
structure Workspace.Aligned (context : Context) (first other : Workspace) : Prop where
  known : first.KnowsMentions context
  rests : first.Rests context
  abreast : first.Abreast context other

/--
Aligned workspaces at some time of synthesis, with some schemas started. What is in progress leads to all
component schemas that are used.
-/
structure Workspace.InStep (context : Context) (active : List String) (uses : String → Prop)
    (first other : Workspace) : Prop extends Workspace.Aligned context first other where
  orderly : first.Orderly context active
  declared : first.HasDeclaredAll context
  led : ∀ schema, first.resolver.state schema = .resolving → ∀ target, uses target →
    TransGen context.Refers schema target

namespace Workspace

variable {context : Context} {first other last otherLast : Workspace}

/-- Notes keep workspaces aligned. -/
theorem Aligned.notes (aligned : first.Aligned context other) (notes : first.Notes last)
    (also : other.Notes otherLast) : last.Aligned context otherLast where
  known := (invariance_knowsMentions context).notes notes aligned.known
  rests := aligned.rests.steady notes.resolver_eq
  abreast := aligned.abreast.notes notes also

/-- The first workspace may have noted less. -/
theorem Aligned.before {earlier : Workspace} (aligned : first.Aligned context other)
    (notes : earlier.Notes first) : earlier.Aligned context other where
  known := by
    obtain ⟨resolver, registry, diagnostics⟩ := first
    obtain ⟨rfl, rfl, _⟩ := notes
    exact aligned.known
  rests := aligned.rests.steady notes.resolver_eq.symm
  abreast := aligned.abreast.before notes

/-- Fewer component schemas may be used. -/
theorem InStep.restrict {active : List String} {uses fewer : String → Prop}
    (inStep : first.InStep context active uses other) (included : ∀ schema, fewer schema → uses schema) :
    first.InStep context active fewer other :=
  { inStep with
    led := fun schema isResolving target isUsed =>
      inStep.led schema isResolving target (included target isUsed) }

/-- After a run that keeps them aligned, workspaces are still in step. -/
theorem InStep.runs {active : List String} {uses : String → Prop}
    (inStep : first.InStep context active uses other) (runs : Runs context first last)
    (aligned : last.Aligned context otherLast) : last.InStep context active uses otherLast :=
  have orderly := inStep.orderly
  have ⟨after, grows⟩ := runs.consistent orderly.consistent
  -- Whatever is in progress in the end was so before.
  { aligned with
    orderly := ⟨after, grows.started orderly.started, orderly.spelled.runs runs⟩
    declared := .runs runs orderly.consistent orderly.spelled inStep.declared
    led := fun schema isResolving => inStep.led schema (grows.was_resolving isResolving) }

end Workspace

/-- Values are the same up to a relation, or both actions have failed. -/
theorem SameEnd.refl {α : Type} {related : α → α → Prop} (holds : ∀ value, related value value)
    (result : Except LocatedFailure α) : SameEnd related result result := by
  cases result with
  | ok value => exact .gives (holds value)
  | error => exact .fails

/--
With some names given, another action keeps pace with an action: it ends in the same way, up to a relation
between what they give, if all that the first action declares stays in a registry.
-/
structure Paces (context : Context) (final : Registry) (active : List String) (uses : String → Prop)
    (given : List String) {α : Type} (mentions : α → List String) (related : α → α → Prop)
    (action also : Synthesis α) : Prop where
  keeps : Keeps context active given action mentions
  paces : ∀ {first other last result}, first.InStep context active uses other →
    (∀ name ∈ given, first.Knows context name) → action.Ends first result last → last.KeptIn final →
    ∃ otherResult otherLast, also.Ends other otherResult otherLast ∧
      SameEnd related result otherResult ∧ last.Aligned context otherLast

namespace Paces

variable {context : Context} {final : Registry} {active given : List String} {uses : String → Prop}
  {α β : Type} {mentions : α → List String} {mentioned : β → List String} {related : α → α → Prop}
  {alsoRelated : β → β → Prop}

/-- The workspaces stay in step. -/
theorem inStep {action also : Synthesis α}
    (paces : Paces context final active uses given mentions related action also)
    {first other last : Workspace} {result : Except LocatedFailure α}
    (inStep : first.InStep context active uses other)
    (knows : ∀ name ∈ given, first.Knows context name) (ends : action.Ends first result last)
    (kept : last.KeptIn final) :
    ∃ otherResult otherLast, also.Ends other otherResult otherLast ∧
      SameEnd related result otherResult ∧ last.InStep context active uses otherLast := by
  have ⟨otherResult, otherLast, alsoEnds, sameEnd, aligned⟩ := paces.paces inStep knows ends kept
  have runs := (paces.keeps _ _ _ inStep.orderly.consistent inStep.orderly.started knows ends).1
  exact ⟨otherResult, otherLast, alsoEnds, sameEnd, inStep.runs runs aligned⟩

/-- More component schemas may be used. -/
theorem restrict {action also : Synthesis α} {fewer : String → Prop}
    (paces : Paces context final active fewer given mentions related action also)
    (included : ∀ schema, fewer schema → uses schema) :
    Paces context final active uses given mentions related action also :=
  ⟨paces.keeps, fun inStep => paces.paces (inStep.restrict included)⟩

/-- More names may be given, and fewer asked for. -/
theorem mono {action also : Synthesis α} {more : List String} {fewer : α → List String}
    (paces : Paces context final active uses given mentions related action also) (included : given ⊆ more)
    (covered : ∀ value, fewer value ⊆ mentions value ++ more) :
    Paces context final active uses more fewer related action also :=
  ⟨paces.keeps.mono included covered, fun inStep knows =>
    paces.paces inStep fun name isGiven => knows name (included isGiven)⟩

/-- Names that are not needed may be given. -/
theorem weaken {action also : Synthesis α}
    (paces : Paces context final active uses [] mentions related action also) :
    Paces context final active uses given mentions related action also :=
  paces.mono (List.nil_subset given) fun _ => List.subset_append_left _ _

/-- Related values may be given back. -/
theorem pure {value other : α} (isRelated : related value other) (included : mentions value ⊆ given) :
    Paces context final active uses given mentions related (pure value) (pure other) where
  keeps := .pure included
  paces inStep _ ends _ := by
    obtain ⟨rfl, rfl⟩ := (Synthesis.ends_pure_iff value).mp ends
    exact ⟨_, _, rfl, .gives isRelated, inStep.toAligned⟩

/-- Both actions may fail. -/
theorem fail (path place : String) (failure other : Failure) :
    Paces context final active uses given mentions related (Synthesis.fail path failure)
      (Synthesis.fail place other) where
  keeps := .fail path failure
  paces inStep _ ends _ := by
    obtain ⟨rfl, rfl⟩ := (Synthesis.ends_fail_iff path failure).mp ends
    exact ⟨_, _, rfl, .fails, inStep.toAligned⟩

/--
Actions that give related values may go on with actions that keep pace for such values, and it may be used
what is known of the first value.
-/
theorem bindKnowing {action also : Synthesis α} {next alsoNext : α → Synthesis β}
    (paces : Paces context final active uses given mentions related action also) (known : α → Prop)
    (keeps : ∀ value, Keeps context active (mentions value ++ given) (next value) mentioned)
    (gives : ∀ {first last value}, first.Orderly context active → action.Ends first (.ok value) last →
      known value)
    (follows : ∀ value other, known value → related value other →
      Paces context final active uses (mentions value ++ given) mentioned alsoRelated (next value)
        (alsoNext other)) :
    Paces context final active uses given mentioned alsoRelated (action >>= next) (also >>= alsoNext) where
  keeps := paces.keeps.bind keeps
  paces {first other last result} inStep knows ends kept := by
    have orderly := inStep.orderly
    rcases (Synthesis.ends_bind_iff _ _).mp ends with
      ⟨error, rfl, fails⟩ | ⟨value, middle, earlier, later⟩
    · obtain ⟨otherResult, otherLast, alsoFails, sameEnd, after⟩ :=
        paces.paces inStep knows fails kept
      cases sameEnd
      exact ⟨_, _, (Synthesis.ends_bind_error_iff _ _ _).mpr (.inl alsoFails), .fails, after⟩
    · obtain ⟨runs, value_known⟩ := paces.keeps _ _ _ orderly.consistent orderly.started knows earlier
      obtain ⟨between, grows⟩ := runs.consistent orderly.consistent
      have middleKnows : ∀ name ∈ mentions value ++ given, middle.Knows context name :=
        fun name isMember => (List.mem_append.mp isMember).elim (value_known value rfl name)
          fun isGiven => grows.knows (knows name isGiven)
      -- What has been declared in between is still there in the end.
      have moreRuns := (keeps value _ _ _ between (grows.started orderly.started) middleKnows later).1
      have middleKept := (moreRuns.consistent between).2.keptIn kept
      obtain ⟨otherResult, otherMiddle, alsoEarlier, sameEnd, after⟩ :=
        paces.inStep inStep knows earlier middleKept
      cases sameEnd with
      | gives isRelated =>
        obtain ⟨otherResult, otherLast, alsoLater, alsoSame, rest⟩ :=
          (follows value _ (gives orderly earlier) isRelated).paces after middleKnows later kept
        exact ⟨otherResult, otherLast,
          (Synthesis.ends_bind_iff _ _).mpr (.inr ⟨_, _, alsoEarlier, alsoLater⟩), alsoSame, rest⟩

/-- Actions that give related values may go on with actions that keep pace for such values. -/
theorem bindRelated {action also : Synthesis α} {next alsoNext : α → Synthesis β}
    (paces : Paces context final active uses given mentions related action also)
    (refl : ∀ value, related value value)
    (follows : ∀ value other, related value other →
      Paces context final active uses (mentions value ++ given) mentioned alsoRelated (next value)
        (alsoNext other)) :
    Paces context final active uses given mentioned alsoRelated (action >>= next) (also >>= alsoNext) :=
  paces.bindKnowing (fun _ => True) (fun value => (follows value value (refl value)).keeps)
    (fun _ _ => trivial) fun value other _ => follows value other

/-- Actions that give the same may go on with actions that keep pace. -/
theorem bind {action also : Synthesis α} {next alsoNext : α → Synthesis β}
    (paces : Paces context final active uses given mentions Eq action also)
    (follows : ∀ value, Paces context final active uses (mentions value ++ given) mentioned alsoRelated
      (next value) (alsoNext value)) :
    Paces context final active uses given mentioned alsoRelated (action >>= next) (also >>= alsoNext) :=
  paces.bindRelated (fun _ => rfl) fun value _ same => same ▸ follows value

/-- What is given may be transformed. -/
theorem map {action also : Synthesis α} {transform : α → β}
    (paces : Paces context final active uses given mentions Eq action also)
    (covered : ∀ value, mentioned (transform value) ⊆ mentions value ++ given) :
    Paces context final active uses given mentioned Eq (do return transform (← action))
      (do return transform (← also)) :=
  paces.bind fun value => pure rfl (covered value)

/-- What the other action gives may be changed into something that is still related. -/
theorem mapOther {action also : Synthesis α} {transform : α → α}
    (paces : Paces context final active uses given mentions related action also)
    (refl : ∀ value, related value value)
    (isRelated : ∀ value other, related value other → related value (transform other)) :
    Paces context final active uses given mentions related action
      (do return transform (← also)) := by
  rw [← bind_pure action]
  exact paces.bindRelated refl fun value other holds =>
    pure (isRelated value other holds) (List.subset_append_left _ _)

/-- Something may be done with values that may be absent. -/
theorem mapM {γ δ : Type} {value? : Option γ} {one other : γ → δ} {body alsoBody : δ → Synthesis α}
    (paces : ∀ value ∈ value?,
      Paces context final active uses given mentions Eq (body (one value)) (alsoBody (other value))) :
    Paces context final active uses given (fun found => (found.map mentions).getD []) Eq
      ((value?.map one).mapM body) ((value?.map other).mapM alsoBody) := by
  cases value? with
  | none => exact pure rfl (by simp)
  | some value =>
    simp only [Option.map_some, Option.mapM_some, map_eq_pure_bind]
    exact (paces value rfl).map fun found => by simp

/-- What is read of both workspaces may be such that the same is done with it. -/
theorem reads {next alsoNext : Workspace → Synthesis α}
    (follows : ∀ workspace, Consistent context workspace →
      Paces context final active uses given mentions related (next workspace) (alsoNext workspace))
    (same : ∀ {first other}, first.InStep context active uses other →
      alsoNext other = alsoNext first) :
    Paces context final active uses given mentions related (get >>= next) (get >>= alsoNext) where
  keeps := .get fun workspace consistent => (follows workspace consistent).keeps
  paces {first other last result} inStep knows ends kept := by
    have goesOn := (follows first inStep.orderly.consistent).paces inStep knows
      (Surroundings.ends_of_get ends) kept
    rw [← same inStep] at goesOn
    exact goesOn

/-- Both actions may report. -/
theorem reports {action also : Synthesis Unit} (keeps : Keeps context active given action fun _ => [])
    (notes : ∀ {first last result}, action.Ends first result last → result = .ok () ∧ first.Notes last)
    (alsoNotes : ∀ {first last result}, also.Ends first result last →
      result = .ok () ∧ first.Notes last) :
    Paces context final active uses given (fun _ => []) Eq action also where
  keeps := keeps
  paces {first other last result} inStep _ ends _ := by
    obtain ⟨rfl, isNoted⟩ := notes ends
    obtain ⟨otherResult, otherLast, alsoEnds⟩ := also.exists_ends other
    obtain ⟨rfl, isAlsoNoted⟩ := alsoNotes alsoEnds
    exact ⟨_, _, alsoEnds, .gives rfl, inStep.toAligned.notes isNoted isAlsoNoted⟩

/-- A shape gets the same name. -/
theorem register {mentions : String → List String} {candidate : String}
    (free : context.FreesNeutral candidate) {shape : Shape} (doc : Option String) (deprecated : Bool)
    (path place : String) (isPlain : shape.synonym? = none) (included : shape.mentions ⊆ given)
    (covered : ∀ name, mentions name ⊆ name :: given) :
    Paces context final active uses given mentions Eq
      (Synthesis.register candidate shape doc deprecated (.inline path))
      (Synthesis.register candidate shape doc deprecated (.inline place)) where
  keeps := .register candidate doc deprecated path isPlain covered
  paces {first other last result} inStep knows ends _ := by
    obtain ⟨rfl, rfl⟩ := (Synthesis.ends_register_iff candidate shape doc deprecated _).mp ends
    obtain ⟨sameName, abreast⟩ :=
      inStep.abreast.register inStep.orderly.spelled free shape doc deprecated path place
    refine ⟨_, _, (Synthesis.ends_register_iff _ _ _ _ _).mpr ⟨rfl, rfl⟩, .gives sameName.symm, ?_,
      inStep.rests.steady rfl, abreast⟩
    rcases first.registry.register_cases candidate shape doc deprecated (.inline path) with
      ⟨_, _, _, _, isSame⟩ | ⟨name, _, isDeclared⟩
    · rw [isSame]
      exact inStep.known
    · refine inStep.known.declare (congrArg Prod.snd isDeclared) (fun _ => id) fun mention isMentioned =>
        knows mention (included isMentioned)

/-- Members that are the same up to those that place no restriction combine into the same, or do not. -/
theorem combine {inputs others : List IntersectionMember} (path place : String)
    (sameBare : Intersection.bare inputs = Intersection.bare others)
    (included : inputs.flatMap IntersectionMember.mentions ⊆ given) :
    Paces context final active uses given (fun merged => merged.shape.mentions) Eq
      (get >>= fun workspace => Synthesis.liftComposition path
        (mergeAllOf inputs workspace.registry.equivalent))
      (get >>= fun workspace => Synthesis.liftComposition place
        (mergeAllOf others workspace.registry.equivalent)) where
  keeps := .get fun workspace _ => .liftComposition path fun merged isMerged name isMember => by
    obtain ⟨member, isInput, isMentioned⟩ := mentions_mergeAllOf isMerged isMember
    exact included (List.mem_flatMap.mpr ⟨member, isInput, isMentioned⟩)
  paces {first other last result} inStep knows ends _ := by
    obtain ⟨rfl, rfl⟩ := (Synthesis.ends_liftComposition_iff _ _).mp (Surroundings.ends_of_get ends)
    have alsoEnds := (Synthesis.ends_liftComposition_iff place
      (mergeAllOf others other.registry.equivalent)).mpr ⟨rfl, Eq.refl other⟩
    refine ⟨_, _, (Synthesis.ends_bind_iff _ _).mpr (.inr ⟨other, other, rfl, alsoEnds⟩), ?_,
      inStep.toAligned⟩
    -- The types of the members mention known names alone, which stand for the same in both.
    have same : Intersection.SameOn (fun type => ∀ mention ∈ type.mentions, last.Knows context mention)
        last.registry.equivalent other.registry.equivalent := fun inLeft inRight =>
      inStep.abreast.equivalent_eq inStep.orderly.consistent inStep.known inLeft inRight
    have sameTypes := Intersection.mergeAllOf_congr same (Intersection.Stable.of_mentions _) fun member
      isMember type isType mention isMentioned =>
      knows mention (included (List.mem_flatMap.mpr ⟨member, isMember,
        List.mem_append_right _ (List.mem_flatMap.mpr ⟨type, isType, isMentioned⟩)⟩))
    have sameMerge : (mergeAllOf others other.registry.equivalent).toOption =
        (mergeAllOf inputs last.registry.equivalent).toOption := by
      rw [← Intersection.toOption_mergeAllOf_bare, ← sameBare, Intersection.toOption_mergeAllOf_bare,
        sameTypes]
    cases isMerged : mergeAllOf inputs last.registry.equivalent <;>
      cases isOther : mergeAllOf others other.registry.equivalent <;>
      simp [isMerged, isOther, Except.toOption] at sameMerge
    · exact .fails
    · exact .gives sameMerge.symm

/-- The other action may do something before that leaves its workspace abreast. -/
theorem after (holds : β → Prop) {step : Synthesis β} {next : β → Synthesis α}
    {action : Synthesis α} (keeps : Keeps context active given action mentions)
    (steps : ∀ {first other : Workspace}, first.InStep context active uses other →
      ∃ value otherMiddle, holds value ∧ step.Ends other (.ok value) otherMiddle ∧
        first.Abreast context otherMiddle)
    (follows : ∀ value, holds value →
      Paces context final active uses given mentions related action (next value)) :
    Paces context final active uses given mentions related action (step >>= next) where
  keeps := keeps
  paces inStep knows ends kept := by
    obtain ⟨value, otherMiddle, isValue, steps, abreast⟩ := steps inStep
    obtain ⟨otherResult, otherLast, alsoEnds, rest⟩ :=
      (follows value isValue).paces { inStep with abreast } knows ends kept
    exact ⟨otherResult, otherLast, (Synthesis.ends_bind_iff _ _).mpr (.inr ⟨_, _, steps, alsoEnds⟩),
      rest⟩

end Paces

end ApiTypes

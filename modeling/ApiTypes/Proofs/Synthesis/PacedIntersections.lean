import ApiTypes.Proofs.Synthesis.PacedWalks

/-!
Intersections with neutral members besides. These contribute what a merge leaves out; and where a reference
that stood alone gets company by them, the schema to which it refers is expanded after it has been
registered, which does nothing but report.
-/

namespace ApiTypes

open Relation

/-- Members are the same up to those that place no restriction. -/
def Intersection.SameBare (members others : List IntersectionMember) : Prop :=
  bare members = bare others

namespace Surroundings

open SchemaNode (Padded Neutral KeepsOnly)

/-- The shape into which the members of an intersection merge, whatever they are. -/
def merge (outside : Surroundings) (nodes : List WalkedNode) (scope : Scope) (depth : Nat) :
    Synthesis Shape := do
  let inputs ← outside.members scope depth nodes 0
  let workspace ← get
  let merged ← Synthesis.liftComposition scope.path (mergeAllOf inputs workspace.registry.equivalent)
  outside.reportNotes merged.notes scope
  return merged.shape

section

variable {outside : Surroundings} {first last : Workspace}

/-- A reference ends in the same way at another place. -/
theorem reference_at {target : String} {scope : Scope} {result : Except LocatedFailure TypeExpr}
    (ends : (outside.reference target scope).Ends first result last) (place : Scope) :
    ∃ also, (outside.reference target place).Ends first also last ∧ SameEnd Eq result also := by
  obtain ⟨also, otherLast, alsoEnds⟩ := (outside.reference target place).exists_ends first
  have looked := outside.referenceEnds alsoEnds
  -- How a reference ends depends on the workspace alone, which is the same.
  cases outside.referenceEnds ends with
  | undefined isUndefined =>
    cases looked with
    | undefined => exact ⟨_, alsoEnds, .fails⟩
    | ready found | unready found => cases isUndefined.symm.trans found
  | ready found isReady =>
    cases looked with
    | undefined isUndefined => cases isUndefined.symm.trans found
    | ready alsoFound =>
      cases found.symm.trans alsoFound
      exact ⟨_, alsoEnds, .gives rfl⟩
    | unready _ isUnready => rcases isReady with state | state <;> simp [state] at isUnready
  | unready found isUnready =>
    cases looked with
    | undefined isUndefined => cases isUndefined.symm.trans found
    | ready _ isReady => rcases isReady with state | state <;> simp [state] at isUnready
    | unready => exact ⟨_, alsoEnds, .fails⟩

/-- Nodes that place no restriction, before the members of an intersection, make no difference. -/
theorem members_of_unconstrained {before rest : List SchemaNode}
    (unconstrained : ∀ node ∈ before, node.isUnconstrained = true) {scope : Scope} {depth index : Nat}
    {result : Except LocatedFailure (List IntersectionMember)}
    (ends : (outside.members scope depth (rest.map outside.walked) (index + before.length)).Ends first
      result last) :
    ∃ also, (outside.members scope depth ((before ++ rest).map outside.walked) index).Ends first also
      last ∧ SameEnd Intersection.SameBare result also := by
  induction before generalizing index with
  | nil => exact ⟨result, ends, .refl (fun found => Eq.refl (Intersection.bare found)) result⟩
  | cons node more ih =>
    have ⟨isFirst, later⟩ := List.forall_mem_cons.mp unconstrained
    rw [List.length_cons, Nat.add_comm more.length, ← Nat.add_assoc] at ends
    obtain ⟨also, alsoEnds, sameEnd⟩ := ih later ends
    rw [List.cons_append, List.map_cons, walked,
      outside.members_cons (SchemaNode.referenceTarget?_of_isUnconstrained isFirst),
      (contribute_of_isUnconstrained isFirst _ _).1, pure_bind,
      requiredMembers_of_isUnconstrained isFirst]
    cases sameEnd with
    | gives same =>
      refine ⟨_, (Synthesis.ends_bind_ok_iff _ _ _).mpr ⟨_, _, alsoEnds, rfl⟩, .gives ?_⟩
      exact same.trans (Intersection.bare_cons_unconstrained _ _ _).symm
    | fails => exact ⟨_, (Synthesis.ends_bind_error_iff _ _ _).mpr (.inl alsoEnds), .fails⟩

end

variable {context otherContext : Context} {final : Registry} {active expanding given : List String}
  {uses : String → Prop} {outside other : Surroundings} {scope place : Scope}

/-- A further member that says nothing contributes nothing. -/
theorem paces_members_unconstrained {node : SchemaNode} (isUnconstrained : node.isUnconstrained = true)
    (depth : Nat) {nodes : List WalkedNode} {index : Nat} {action : Synthesis (List IntersectionMember)}
    (goesOn : Paces context final active uses given (List.flatMap IntersectionMember.mentions)
      Intersection.SameBare action (other.members place depth nodes (index + 1))) :
    Paces context final active uses given (List.flatMap IntersectionMember.mentions)
      Intersection.SameBare action (other.members place depth (other.walked node :: nodes) index) := by
  rw [walked, other.members_cons (SchemaNode.referenceTarget?_of_isUnconstrained isUnconstrained),
    (contribute_of_isUnconstrained isUnconstrained _ _).1, pure_bind,
    requiredMembers_of_isUnconstrained isUnconstrained]
  refine goesOn.mapOther (fun found => Eq.refl (Intersection.bare found)) fun found others same => ?_
  exact same.trans (Intersection.bare_cons_unconstrained _ _ _).symm

/-- Nodes that keep pace contribute the same, and require the same. -/
theorem paces_members_contribution {node also : SchemaNode} (isPadded : Padded context node also)
    (isOther : node.kind.referenceTarget? = none) (sameName : place.name = scope.name) (depth : Nat)
    (allowed : scope.Allows context context.FreesNeutral .contributed node)
    (walks : WalksPace context final active uses node (outside.walk node) (other.walk also))
    {nodes others : List WalkedNode} {index alsoIndex : Nat}
    (goesOn : ∀ {given}, Paces context final active uses given (List.flatMap IntersectionMember.mentions)
      Intersection.SameBare (outside.members scope depth nodes (index + 1))
      (other.members place depth others (alsoIndex + 1))) :
    Paces context final active uses given (List.flatMap IntersectionMember.mentions)
      Intersection.SameBare (outside.members scope depth (outside.walked node :: nodes) index)
      (other.members place depth (other.walked also :: others) alsoIndex) := by
  rw [walked, walked, outside.members_cons isOther,
    other.members_cons (isPadded.referenceTarget?_eq.trans isOther)]
  have contributes := @WalksPace.contribute _ _ _ _ _ _ _ walks
    (scope.below ("/allOf/" ++ toString index)) (place.below ("/allOf/" ++ toString alsoIndex)) depth
    sameName allowed
  refine contributes.weaken.bind fun shape => ?_
  refine goesOn.bindRelated (fun found => Eq.refl (Intersection.bare found)) fun found rest same =>
    .pure ?_ ?_
  · -- Members may stand at other places, which only their labels tell.
    rw [Intersection.SameBare, Intersection.bare_cons, Intersection.bare_cons, Intersection.bare_append,
      Intersection.bare_append, isPadded.requiredMembers_eq, same,
      bare_requiredMembers node (toString index) (toString alsoIndex)]
    rfl
  intro name isMentioned
  rw [mentions_cons_contribution, List.mem_append] at isMentioned
  simp only [List.mem_append]
  exact isMentioned.elim (fun inShape => .inr (.inl inShape)) .inl

namespace PacedBy

section

variable (paced : PacedBy context otherContext final active expanding uses outside other)

include paced

/-- A schema that keeps its name is registered once it is ready, with all to which it leads. -/
theorem settles {target : String} (isUsed : uses target)
    (secludes : context.Secludes (ReflTransGen context.Refers target)) {first also : Workspace}
    (inStep : first.InStep context active uses also) (isReady : first.Ready target)
    (kept : first.KeptIn final) : first.Settles context active (ReflTransGen context.Refers target) where
  orderly := inStep.orderly
  declared := inStep.declared
  reflexive name declaration stands := paced.reflexive name declaration (kept name declaration stands)
  registered schema leads := by
    -- What is in progress leads to the target, which would lead to itself if it were in progress.
    have registered : first.resolver.state target = .registered := isReady.resolve_left fun resolving =>
      secludes.acyclic target .refl (inStep.led target resolving target isUsed)
    exact inStep.rests.registered registered leads secludes.acyclic

/-- A schema that keeps its name contributes a type once it has been looked up, and that only reports. -/
theorem exists_expand {target : String} (keepsName : context.KeepsName target) (isUsed : uses target)
    (path : String) {first also : Workspace} (inStep : first.InStep context active uses also)
    (isReady : first.Ready target) (kept : first.KeptIn final) :
    ∃ shape last, (outside.expand target path).Ends first (.ok shape) last ∧ first.Notes last ∧
      shape.outline.isTyped = true ∧ shape.outline.isUnion = false := by
  have settles := paced.settles isUsed keepsName.secludes inStep isReady kept
  obtain ⟨shape, last, ends, notes⟩ := paced.expandAgain path isUsed keepsName.secludes settles
  have yields := paced.adequate.expand target path _ _ _ inStep.orderly.consistent inStep.orderly.started
    ends
  exact ⟨shape, last, ends, notes,
    keepsName.typed shape.outline (yields.outlined inStep.orderly.consistent).1⟩

/-- A reference that stands alone, and has been looked up, is merged as the only member with a meaning. -/
theorem exists_members {nodes : List SchemaNode} {target : String}
    (isOnly : SchemaNode.onlyReference? nodes = some target) (keepsName : context.KeepsName target)
    (isUsed : uses target) (scope : Scope) (depth : Nat) {first also last : Workspace}
    {result : Except LocatedFailure TypeExpr} (inStep : first.InStep context active uses also)
    (ends : (outside.reference target place).Ends first result last) (kept : last.KeptIn final) :
    ∃ inputs otherLast,
      (outside.members scope depth (nodes.map outside.walked) 0).Ends first inputs otherLast ∧
      last.Notes otherLast ∧ SameEnd (fun type found => ∃ name shape, type = .named name ∧
        Intersection.bare found = [⟨"", some name, shape⟩] ∧ shape.outline.isTyped = true ∧
        shape.outline.isUnion = false) result inputs := by
  -- Of the members, the reference alone is not left out of the merge.
  obtain ⟨traits, isSignificant⟩ := SchemaNode.significant_of_onlyReference? isOnly
  obtain ⟨before, after, rfl, noneBefore, _, noneAfter⟩ := List.filter_eq_cons_iff.mp isSignificant
  have unconstrainedBefore : ∀ node ∈ before, node.isUnconstrained = true := by simpa using noneBefore
  have unconstrainedAfter : ∀ node ∈ after, node.isUnconstrained = true := by simpa using noneAfter
  have spliced {inputs : Except LocatedFailure (List IntersectionMember)} {otherLast : Workspace}
      (membersEnd : (outside.members scope depth
        ((⟨.reference target, traits⟩ :: after).map outside.walked) (0 + before.length)).Ends first inputs
        otherLast) :=
    members_of_unconstrained unconstrainedBefore membersEnd
  rw [List.map_cons, walked, members_cons_reference] at spliced
  obtain ⟨looked, lookedEnds, sameLooked⟩ :=
    reference_at ends (scope.below ("/allOf/" ++ toString (0 + before.length)))
  cases sameLooked with
  | fails =>
    obtain ⟨inputs, membersEnd, sameEnd⟩ :=
      spliced ((Synthesis.ends_bind_error_iff _ _ _).mpr (.inl lookedEnds))
    cases sameEnd
    exact ⟨_, last, membersEnd, notes_refl last, .fails⟩
  | @gives type _ same =>
    subst same
    -- The reference takes over no null, and its schema is expanded to a type.
    have yields := paced.adequate.reference target _ _ _ _ inStep.orderly.consistent
      inStep.orderly.started lookedEnds
    cases yields with
    | @reference _ _ _ _ node name found emitted _ isReady =>
      have paces : Paces context final active uses [] _ Eq (outside.reference target place)
        (other.reference target place) := paced.reference isUsed
      obtain ⟨_, _, _, _, still⟩ := paces.inStep inStep (by simp) ends kept
      obtain ⟨shape, afterwards, expands, notes, isTyped, notUnion⟩ :=
        paced.exists_expand keepsName isUsed (scope.below ("/allOf/" ++ toString (0 + before.length))).path
          still isReady kept
      obtain ⟨others, othersEnd, sameOthers⟩ := members_of_unconstrained unconstrainedAfter
        (show (outside.members scope depth (([] : List SchemaNode).map outside.walked)
          (0 + before.length + 1 + after.length)).Ends afterwards (.ok []) afterwards from rfl)
      rw [List.append_nil] at othersEnd
      cases sameOthers with
      | @gives _ others bareOthers =>
        obtain ⟨inputs, membersEnd, sameEnd⟩ := spliced ((Synthesis.ends_bind_iff _ _).mpr (.inr ⟨_, _,
          lookedEnds, (Synthesis.ends_bind_iff _ _).mpr (.inr ⟨_, _, expands,
            (Synthesis.ends_bind_iff _ _).mpr (.inr ⟨_, _, othersEnd, rfl⟩)⟩)⟩))
        cases sameEnd with
        | @gives _ inputs sameBare =>
          refine ⟨_, afterwards, membersEnd, notes, .gives ⟨name, shape, ?_, ?_, isTyped, notUnion⟩⟩
          · rw [keepsName.direct node found]
            rfl
          · rw [← sameBare, Intersection.bare_cons, ← bareOthers, if_neg]
            · rfl
            · intro isUnconstrained
              cases shape <;> cases isUnconstrained
              cases isTyped

/-- A further reference to a schema that says nothing contributes nothing. -/
theorem members_neutral {target : String} (isNeutral : context.IsNeutral target) (traits : NodeTraits)
    (depth : Nat) {nodes : List WalkedNode} {index : Nat} {action : Synthesis (List IntersectionMember)}
    (goesOn : Paces context final active uses given (List.flatMap IntersectionMember.mentions)
      Intersection.SameBare action (other.members place depth nodes (index + 1))) :
    Paces context final active uses given (List.flatMap IntersectionMember.mentions)
      Intersection.SameBare action
      (other.members place depth (other.walked ⟨.reference target, traits⟩ :: nodes) index) := by
  rw [walked, members_cons_reference]
  -- The schema is entered if that has not happened before.
  refine .after (fun _ => True) goesOn.keeps (fun inStep => ?_) fun type _ => ?_
  · obtain ⟨type, otherLast, ends, abreast⟩ := paced.reference_neutral isNeutral inStep
    exact ⟨type, otherLast, trivial, ends, abreast⟩
  -- Its expansion gives nothing.
  refine .after (· = .unconstrained) goesOn.keeps (fun {_ also} inStep => ?_) fun shape isShape => ?_
  · exact ⟨_, also, rfl, paced.expandNeutral _ also isNeutral, inStep.abreast⟩
  subst isShape
  refine goesOn.mapOther (fun found => Eq.refl (Intersection.bare found)) fun found others same => ?_
  exact same.trans (Intersection.bare_cons_unconstrained _ _ _).symm

/-- A reference contributes the same to both intersections. -/
theorem members_reference {target : String} (isUsed : uses target) (traits : NodeTraits) (depth : Nat)
    {nodes others : List WalkedNode} {index alsoIndex : Nat}
    (goesOn : ∀ {given}, Paces context final active uses given (List.flatMap IntersectionMember.mentions)
      Intersection.SameBare (outside.members scope depth nodes (index + 1))
      (other.members place depth others (alsoIndex + 1))) :
    Paces context final active uses given (List.flatMap IntersectionMember.mentions)
      Intersection.SameBare
      (outside.members scope depth (outside.walked ⟨.reference target, traits⟩ :: nodes) index)
      (other.members place depth (other.walked ⟨.reference target, traits⟩ :: others) alsoIndex) := by
  rw [walked, walked, members_cons_reference, members_cons_reference]
  -- The schema is looked up first, and the name that is then held for it is known when it is expanded.
  refine (paced.reference isUsed).bind fun type => ?_
  have named : ∀ name, context.emitted? target = some name →
      name ∈ (type.mentions ++ (context.emitted? target).toList) ++ given := by
    intro name isEmitted
    simp [isEmitted]
  refine (paced.expand _ _ (.inl isUsed) named).bind fun shape => ?_
  refine goesOn.bindRelated (fun found => Eq.refl (Intersection.bare found)) fun found also same =>
    .pure ?_ ?_
  · -- Members with the same label and shape are left out of both or of none.
    rw [Intersection.SameBare, Intersection.bare_cons, Intersection.bare_cons, same]
  refine List.Subset.trans (mentions_cons_reference target type shape found) fun name isMentioned => ?_
  simp only [List.mem_append] at isMentioned ⊢
  tauto

/-- The members of an intersection are the same up to those that place no restriction. -/
theorem members (sameName : place.name = scope.name) (depth : Nat)
    {entries : List (Option SchemaNode × SchemaNode)}
    (walks : ∀ entry ∈ entries, ∀ node ∈ entry.1,
      WalksPace context final active uses node (outside.walk node) (other.walk entry.2))
    (padded : ∀ entry ∈ entries, ∀ node ∈ entry.1, Padded context node entry.2)
    (neutral : ∀ entry ∈ entries, entry.1 = none → Neutral context entry.2)
    (allowed : ∀ entry ∈ entries, ∀ node ∈ entry.1,
      scope.Allows context context.FreesNeutral .contributed node)
    (refers : ∀ entry ∈ entries, ∀ node ∈ entry.1, ∀ target, node.kind.referenceTarget? = some target →
      uses target) (index alsoIndex : Nat) :
    Paces context final active uses given (List.flatMap IntersectionMember.mentions)
      Intersection.SameBare
      (outside.members scope depth ((entries.filterMap Prod.fst).map outside.walked) index)
      (other.members place depth ((entries.map Prod.snd).map other.walked) alsoIndex) := by
  -- The induction is on the members of the other intersection; the first one may lack some.
  induction entries generalizing given index alsoIndex with
  | nil => exact .pure (Eq.refl (Intersection.bare [])) (by simp)
  | cons entry rest ih =>
    obtain ⟨node?, also⟩ := entry
    have ⟨first, later⟩ := List.forall_mem_cons.mp walks
    have ⟨isPadded, laterPadded⟩ := List.forall_mem_cons.mp padded
    have ⟨isNeutral, laterNeutral⟩ := List.forall_mem_cons.mp neutral
    have ⟨allowsFirst, laterAllowed⟩ := List.forall_mem_cons.mp allowed
    have ⟨refersFirst, laterRefers⟩ := List.forall_mem_cons.mp refers
    have goesOn {given : List String} (index : Nat) := @ih given later laterPadded laterNeutral
      laterAllowed laterRefers index (alsoIndex + 1)
    cases node? with
    | none =>
      rw [List.filterMap_cons_none rfl, List.map_cons, List.map_cons]
      -- A further member contributes nothing, in place or by reference.
      cases isNeutral rfl with
      | inPlace isUnconstrained => exact paces_members_unconstrained isUnconstrained depth (goesOn index)
      | reference placesNone => exact paced.members_neutral placesNone _ depth (goesOn index)
    | some node =>
      simp only [List.filterMap_cons, List.map_cons]
      -- Members of both are either references to the same schema or contribute in place.
      cases isReference : node.kind.referenceTarget? with
      | none =>
        exact paces_members_contribution (isPadded node rfl) isReference sameName depth
          (allowsFirst node rfl) (first node rfl) (goesOn (index + 1))
      | some target =>
        have isUsed := refersFirst node rfl target isReference
        obtain ⟨kind, traits⟩ := node
        cases kind <;> cases isReference
        cases isPadded _ rfl
        exact paced.members_reference isUsed traits depth (goesOn (index + 1))

/-- The shape into which the members merge is the same. -/
theorem merge (sameName : place.name = scope.name) (depth : Nat)
    {entries : List (Option SchemaNode × SchemaNode)}
    (walks : ∀ entry ∈ entries, ∀ node ∈ entry.1,
      WalksPace context final active uses node (outside.walk node) (other.walk entry.2))
    (padded : ∀ entry ∈ entries, ∀ node ∈ entry.1, Padded context node entry.2)
    (neutral : ∀ entry ∈ entries, entry.1 = none → Neutral context entry.2)
    (allowed : ∀ entry ∈ entries, ∀ node ∈ entry.1,
      scope.Allows context context.FreesNeutral .contributed node)
    (refers : ∀ entry ∈ entries, ∀ node ∈ entry.1, ∀ target, node.kind.referenceTarget? = some target →
      uses target) :
    Paces context final active uses given Shape.mentions Eq
      (outside.merge ((entries.filterMap Prod.fst).map outside.walked) scope depth)
      (other.merge ((entries.map Prod.snd).map other.walked) place depth) := by
  unfold Surroundings.merge
  refine (paced.members sameName depth walks padded neutral allowed refers 0 0).bindRelated
    (fun found => Eq.refl (Intersection.bare found)) fun inputs others sameBare => ?_
  rw [← bind_assoc, ← bind_assoc]
  refine (Paces.combine _ _ sameBare (List.subset_append_left _ _)).bind fun merged => ?_
  exact (Paces.reports (keeps_reportNotes _ _) notes_of_reportNotes notes_of_reportNotes).bind
    fun _ => .pure rfl (by simp)

/-- A reference that stands alone is merged into the alias that it stands for, if that keeps its name. -/
theorem exists_merge {nodes : List SchemaNode} {target : String}
    (isOnly : SchemaNode.onlyReference? nodes = some target) (keepsName : context.KeepsName target)
    (isUsed : uses target) (scope : Scope) (depth : Nat) {first also last : Workspace}
    {result : Except LocatedFailure TypeExpr} (inStep : first.InStep context active uses also)
    (ends : (outside.reference target place).Ends first result last) (kept : last.KeptIn final) :
    ∃ shape otherLast, (outside.merge (nodes.map outside.walked) scope depth).Ends first shape otherLast ∧
      last.Notes otherLast ∧ SameEnd (fun type shape => shape = .alias type) result shape := by
  obtain ⟨inputs, middle, membersEnd, notes, sameEnd⟩ :=
    paced.exists_members isOnly keepsName isUsed scope depth inStep ends kept
  cases sameEnd with
  | fails =>
    exact ⟨_, middle, (Synthesis.ends_bind_error_iff _ _ _).mpr (.inl membersEnd), notes, .fails⟩
  | @gives _ inputs given =>
    obtain ⟨name, shape, rfl, isBare, isTyped, notUnion⟩ := given
    -- Of one typed member that is no choice the merge makes its name, whatever the registry holds.
    have merges := @Intersection.mergeAllOf_eq_of_bare middle.registry.equivalent inputs "" name shape isBare
      (by rwa [← IntersectionMember.isTyped_outline]) (by rwa [← IntersectionMember.isUnion_outline])
    cases isMerged : mergeAllOf inputs middle.registry.equivalent with
    | error error =>
      rw [isMerged] at merges
      cases merges
    | ok merged =>
      rw [isMerged] at merges
      cases merges
      have combines : (Synthesis.liftComposition scope.path
          (mergeAllOf inputs middle.registry.equivalent)).Ends middle (.ok ⟨.alias (.named name), []⟩)
            middle := (Synthesis.ends_liftComposition_iff _ _).mpr ⟨by rw [isMerged]; rfl, rfl⟩
      obtain ⟨_, otherLast, reports⟩ := (outside.reportNotes [] scope).exists_ends middle
      obtain ⟨rfl, more⟩ := notes_of_reportNotes reports
      exact ⟨.ok (.alias (.named name)), otherLast,
        (Synthesis.ends_bind_iff _ _).mpr (.inr ⟨_, _, membersEnd,
          (Synthesis.ends_bind_iff _ _).mpr (.inr ⟨middle, middle, rfl,
            (Synthesis.ends_bind_iff _ _).mpr (.inr ⟨_, _, combines,
              (Synthesis.ends_bind_iff _ _).mpr (.inr ⟨_, _, reports, rfl⟩)⟩)⟩)⟩),
        notes.trans more, .gives rfl⟩

/-- No choice keeps its name in an intersection. -/
theorem not_leadsToChoice {target : String} (keepsName : context.KeepsName target) :
    (outside.context.model.node? target).any outside.context.model.isUnion = false := by
  rw [paced.sound.context_eq]
  cases found : context.model.node? target with
  | none => rfl
  | some node =>
    rw [Option.any_some, Bool.eq_false_iff]
    intro isChoice
    have ⟨_, notUnion⟩ := keepsName.typed .union fun _ _ => .referenceChoice found isChoice
    cases notUnion

/-- The shape of an intersection is the same. -/
theorem intersection (sameName : place.name = scope.name) (depth : Nat)
    {entries : List (Option SchemaNode × SchemaNode)}
    (walks : ∀ entry ∈ entries, ∀ node ∈ entry.1,
      WalksPace context final active uses node (outside.walk node) (other.walk entry.2))
    (padded : ∀ entry ∈ entries, ∀ node ∈ entry.1, Padded context node entry.2)
    (neutral : ∀ entry ∈ entries, entry.1 = none → Neutral context entry.2)
    (keepsOnly : KeepsOnly context (entries.filterMap Prod.fst) (entries.map Prod.snd))
    (allowed : ∀ entry ∈ entries, ∀ node ∈ entry.1,
      scope.Allows context context.FreesNeutral .contributed node)
    (refers : ∀ entry ∈ entries, ∀ node ∈ entry.1, ∀ target, node.kind.referenceTarget? = some target →
      uses target) :
    Paces context final active uses given Shape.mentions Eq
      (outside.intersection ((entries.filterMap Prod.fst).map outside.walked) scope depth)
      (other.intersection ((entries.map Prod.snd).map other.walked) place depth) := by
  have merges {given : List String} := @merge context otherContext final active expanding given uses
    outside other scope place paced sameName depth entries walks padded neutral allowed refers
  have isUsed {target : String}
      (isOnly : SchemaNode.onlyReference? (entries.filterMap Prod.fst) = some target) : uses target := by
    obtain ⟨traits, isMember⟩ := SchemaNode.mem_of_onlyReference? isOnly
    obtain ⟨entry, isEntry, isFirst⟩ := List.mem_filterMap.mp isMember
    exact refers entry isEntry _ isFirst target rfl
  -- An alias looks the same target up in both.
  have aliases {target : String} (uses_target : uses target) : Paces context final active uses given
      Shape.mentions Eq (do return .alias (← outside.reference target (scope.below "/allOf/0")))
      (do return .alias (← other.reference target (place.below "/allOf/0"))) :=
    (paced.reference uses_target).bind fun type => .pure rfl fun name isMember => by
      simp only [Shape.mentions] at isMember
      simp [isMember]
  cases keepsOnly with
  | same sameOnly =>
    cases isOnly : SchemaNode.onlyReference? (entries.filterMap Prod.fst) with
    | some target =>
      rw [outside.intersection_of_reference (by rwa [map_fst_walked]),
        other.intersection_of_reference (by rwa [map_fst_walked, sameOnly]), paced.leadsToChoice_eq]
      split
      · exact .fail _ _ _ _
      · exact aliases (isUsed isOnly)
    | none =>
      rw [outside.intersection_of_members (by rwa [map_fst_walked]),
        other.intersection_of_members (by rwa [map_fst_walked, sameOnly])]
      exact merges
  | @company target isOnly several keepsName =>
    rw [outside.intersection_of_reference (by rwa [map_fst_walked]),
      other.intersection_of_members (by rwa [map_fst_walked]), if_neg (by
        simp [paced.not_leadsToChoice keepsName])]
    refine ⟨(aliases (isUsed isOnly)).keeps, fun {first also last result} inStep knows ends kept => ?_⟩
    -- The first intersection might as well have been merged, only to report more.
    have merged {looked : Except LocatedFailure TypeExpr}
        (lookedEnds : (outside.reference target (scope.below "/allOf/0")).Ends first looked last)
        (isResult : SameEnd (fun type shape => shape = .alias type) looked result) :
        ∃ otherResult otherLast,
          (other.merge ((entries.map Prod.snd).map other.walked) place depth).Ends also otherResult
            otherLast ∧ SameEnd Eq result otherResult ∧ last.Aligned context otherLast := by
      obtain ⟨shape, middle, mergeEnds, notes, sameShape⟩ := paced.exists_merge isOnly keepsName
        (isUsed isOnly) scope depth inStep lookedEnds kept
      obtain ⟨otherResult, otherLast, otherEnds, sameEnd, aligned⟩ := merges.paces inStep knows mergeEnds
        fun name declaration stands => kept name declaration (notes.registry_eq ▸ stands)
      refine ⟨otherResult, otherLast, otherEnds, ?_, aligned.before notes⟩
      cases isResult with
      | fails =>
        cases sameShape
        cases sameEnd
        exact .fails
      | gives isAlias =>
        cases sameShape with
        | gives isSame =>
          subst isAlias isSame
          exact sameEnd
    rcases (Synthesis.ends_bind_iff _ _).mp ends with ⟨error, rfl, fails⟩ | ⟨type, middle, looks, gives⟩
    · exact merged fails .fails
    · obtain ⟨rfl, rfl⟩ := (Synthesis.ends_pure_iff _).mp gives
      exact merged looks (.gives rfl)

/-- Intersections keep pace if their members do. -/
theorem intersectionWalk {entries : List (Option SchemaNode × SchemaNode)}
    {discriminator : Option Discriminator} {traits : NodeTraits}
    (walks : ∀ entry ∈ entries, ∀ node ∈ entry.1,
      WalksPace context final active uses node (outside.walk node) (other.walk entry.2))
    (padded : ∀ entry ∈ entries, ∀ node ∈ entry.1, Padded context node entry.2)
    (neutral : ∀ entry ∈ entries, entry.1 = none → Neutral context entry.2)
    (keepsOnly : KeepsOnly context (entries.filterMap Prod.fst) (entries.map Prod.snd))
    (refers : ∀ entry ∈ entries, ∀ node ∈ entry.1, ∀ target, node.Refers target → uses target) :
    WalksPace context final active uses ⟨.composed .allOf (entries.filterMap Prod.fst) discriminator, traits⟩
      (outside.intersectionWalk ((entries.filterMap Prod.fst).map outside.walked) traits)
      (other.intersectionWalk ((entries.map Prod.snd).map other.walked) traits) := by
  -- Everything that an intersection is asked for starts with its shape.
  have intersects {given : List String} {scope place : Scope} (depth : Nat)
      (sameName : place.name = scope.name) (allowed : scope.Allows context context.FreesNeutral .declared
        ⟨.composed .allOf (entries.filterMap Prod.fst) discriminator, traits⟩) :=
    @PacedBy.intersection context otherContext final active expanding given uses outside other scope place
      paced sameName depth entries walks padded neutral keepsOnly (fun entry isEntry node isNode candidate
        tries => allowed candidate (.member (List.mem_filterMap.mpr ⟨entry, isEntry, isNode⟩) tries))
      fun entry isEntry node isNode target isTarget => refers entry isEntry node isNode target (by
        obtain ⟨kind, traits⟩ := node
        cases kind <;> cases isTarget
        exact .reference)
  -- What it contributes is the expansion of what it names, which its members use.
  have contributes {given : List String} {scope place : Scope} (depth : Nat)
      (sameName : place.name = scope.name) (allowed : scope.Allows context context.FreesNeutral .declared
        ⟨.composed .allOf (entries.filterMap Prod.fst) discriminator, traits⟩) :
      Paces context final active uses given MemberShape.mentions Eq
        (do outside.contributionOf (← outside.intersection
          ((entries.filterMap Prod.fst).map outside.walked) scope depth) scope)
        (do other.contributionOf (← other.intersection
          ((entries.map Prod.snd).map other.walked) place depth) place) := by
    refine (intersects depth sameName allowed).bindKnowing (fun shape => ∀ type schema,
      shape = .alias type → context.schemaOf? type = some schema → uses schema ∨ context.IsAtomic schema)
      (fun shape => paced.sound.keeps_contributionOf scope (List.subset_append_left _ _)) ?_
      fun shape other known same => same ▸ paced.contributionOf known (List.subset_append_left _ _)
    exact Recurs.uses_of_alias paced.adequate paced.closed fun node isMember target inside => by
      obtain ⟨entry, isEntry, isNode⟩ := List.mem_filterMap.mp isMember
      exact refers entry isEntry node isNode target inside
  refine walksPace_declaredWalk rfl (fun depth sameName allowed => ?_) (fun depth sameName allowed _ =>
    contributes depth sameName fun candidate tries => allowed candidate (.parts rfl tries))
    (contributes 0)
  refine (intersects depth sameName allowed).bind fun shape => ?_
  cases shape <;> exact .pure rfl (by simp [Shape.mentions])

/-- Whatever is asked of a node keeps pace when its intersections have neutral members besides. -/
theorem walk {node also : SchemaNode} (isPadded : Padded context node also)
    (refers : ∀ target, node.Refers target → uses target) :
    WalksPace context final active uses node (outside.walk node) (other.walk also) := by
  -- The induction is on how the one node is padded, which only adds members to intersections.
  induction isPadded with
  | primitive =>
    exact walksPace_plainWalk rfl fun _ _ _ => .pure rfl (by simp [TypeExpr.mentions])
  | enum =>
    refine walksPace_declaredWalk rfl (fun _ _ _ => .pure rfl (by simp [Shape.mentions]))
      (fun depth sameName allowed used => ?_) fun sameName _ => .pure (by rw [sameName])
        (by simp [MemberShape.mentions, MemberShape.types])
    exact (used fun candidate tries => allowed candidate (.type rfl tries)).map
      (by simp [MemberShape.mentions, MemberShape.types])
  | array _ ih =>
    have items := ih fun target inside => refers target (.items inside)
    refine walksPace_plainWalk rfl fun depth sameName allowed => ?_
    refine (paced.checkArray _ _).bind fun _ => ?_
    refine (items.expression (depth + 1) (Scope.name_child sameName _ _ _) fun candidate tries =>
      allowed candidate (.items tries)).weaken.bind fun type => ?_
    exact .pure rfl (by simp [TypeExpr.mentions])
  | @map value alsoValue traits _ ih =>
    have inside := ih fun target inside => refers target (.value inside)
    have values {given : List String} {scope place : Scope} (depth : Nat)
        (sameName : place.name = scope.name)
        (allowed : scope.Allows context context.FreesNeutral .declared ⟨.map value, traits⟩) :=
      @paces_mapValue context final active given uses outside other scope place sameName value alsoValue
        (fun _ candidate tries => allowed candidate (.value tries)) inside depth
    have plain := @walksPace_plainWalk context final active uses outside other ⟨.map value, traits⟩ rfl
      (fun scope depth => do
          return { kind := .map (← mapValue (outside.walked value) scope depth)
                   nullable := traits.nullable })
      (fun scope depth => do
          return { kind := .map (← mapValue (other.walked alsoValue) scope depth)
                   nullable := traits.nullable })
      fun depth sameName allowed =>
        (values depth sameName allowed).bind fun type => .pure rfl (by simp [TypeExpr.mentions])
    refine walksPace_contributing plain (fun depth sameName allowed => ?_) plain.expand
    exact (values depth sameName fun candidate tries => allowed candidate (.parts rfl tries)).bind
      fun type => .pure rfl (by simp [MemberShape.mentions, MemberShape.types, RecordShape.types])
  | @object properties additional traits padded _ listed further =>
    rw [walk_object, walk_object]
    refine walksPace_objectWalk (fun property isListed => listed property isListed fun target inside => ?_)
      padded fun value isValue => further value isValue fun target inside => ?_
    · exact refers target (.property (List.mem_map_of_mem isListed) inside)
    · exact refers target (.additional (Option.mem_map_of_mem Prod.fst isValue) inside)
  | @choice kind members discriminator traits isChoice padded ih =>
    have walks (member : SchemaNode × SchemaNode) (isMember : member ∈ members) :=
      ih member isMember fun target inside =>
        refers target (.member (List.mem_map_of_mem isMember) inside)
    rw [walk_choice _ _ isChoice, walk_choice _ _ isChoice]
    refine walksPace_declaredWalk rfl
      (fun depth sameName allowed => paced.union isChoice sameName allowed walks padded
        (fun found isFound target isMapped => ?_) traits.nullable depth)
      (fun _ _ _ _ => .pure rfl (by simp [MemberShape.mentions, MemberShape.types]))
      fun sameName _ => .pure (by rw [sameName]) (by simp [MemberShape.mentions, MemberShape.types])
    cases isFound
    exact refers target (.mapping isChoice isMapped)
  | @intersection members _ _ padded neutral keepsOnly ih =>
    rw [walk_allOf, walk_allOf]
    refine paced.intersectionWalk (fun entry isEntry node isNode =>
      ih entry isEntry node isNode fun target inside => ?_) padded neutral keepsOnly
      fun entry isEntry node isNode target inside => ?_
    all_goals exact refers target (.member (List.mem_filterMap.mpr ⟨entry, isEntry, isNode⟩) inside)
  | @reference target traits =>
    have isUsed := refers target .reference
    have plain := @walksPace_plainWalk context final active uses outside other ⟨.reference target, traits⟩
      rfl (fun scope _ => do
          let type ← outside.reference target scope
          return type.withNullable (type.nullable || traits.nullable))
      (fun scope _ => do
          let type ← other.reference target scope
          return type.withNullable (type.nullable || traits.nullable))
      fun _ _ _ => (paced.reference isUsed).bind fun type => .pure rfl (by simp)
    refine ⟨plain.declare, plain.expression, plain.contribute, fun sameName _ => ?_⟩
    refine (paced.reference isUsed).bind fun type => paced.expand _ _ (.inl isUsed) fun name isEmitted => ?_
    simp [isEmitted]
  | @any traits =>
    have plain := @walksPace_plainWalk context final active uses outside other ⟨.any, traits⟩ rfl
      (fun _ _ => return TypeExpr.any.withNullable traits.nullable)
      (fun _ _ => return TypeExpr.any.withNullable traits.nullable)
      fun _ _ _ => .pure rfl (by simp [TypeExpr.mentions, TypeExpr.any])
    rw [walk_any, walk_any, anyWalk, anyWalk]
    split
    · exact plain
    · refine walksPace_contributing plain (fun _ _ _ => .pure rfl ?_) fun _ _ => .pure rfl ?_ <;>
        split <;> simp [MemberShape.mentions, MemberShape.types]
  | null => exact walksPace_plainWalk rfl fun _ _ _ => .pure rfl (by simp [TypeExpr.mentions])

end

end PacedBy

end Surroundings

end ApiTypes

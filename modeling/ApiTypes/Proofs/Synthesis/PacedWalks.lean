import ApiTypes.Proofs.Synthesis.Pacing

/-!
Walks of padded nodes. Whatever is asked of a node that has neutral members besides, it keeps pace with
what is asked of the node itself, if that holds of what is asked of component schemas.
-/

namespace ApiTypes

open Relation

/--
What is asked of other component schemas keeps pace in a context with neutral members besides, inside some
expansions and as far as component schemas are used.
-/
structure Surroundings.PacedBy (context otherContext : Context) (final : Registry)
    (active expanding : List String) (uses : String → Prop) (outside other : Surroundings) : Prop where
  sound : outside.Sound context active
  adequate : outside.Adequate context active expanding
  context_eq : other.context = otherContext
  pads : context.Pads otherContext
  reflexive : final.IsReflexive
  closed : ∀ schema target, uses schema → context.Includes schema target → uses target
  enter : ∀ {target : String} {node : SchemaNode} {first also : Workspace},
    context.model.node? target = some node → ¬context.IsNeutral target → uses target →
    first.InStep context active uses also → first.resolver.state target = .pending →
    ((outside.enter target).run first).2.KeptIn final →
    ((outside.enter target).run first).2.Aligned context ((other.enter target).run also).2
  expand : ∀ {given : List String} {target : String} (path place : String),
    uses target ∨ context.IsAtomic target →
    (∀ name, context.emitted? target = some name → name ∈ given) →
    Paces context final active uses given MemberShape.mentions Eq (outside.expand target path)
      (other.expand target place)
  /-- What is settled can be expanded once more. -/
  expandAgain : ∀ {target : String} {workspace : Workspace} (path : String), uses target →
    context.Secludes (ReflTransGen context.Refers target) →
    workspace.Settles context active (ReflTransGen context.Refers target) →
    ∃ shape last, (outside.expand target path).Ends workspace (.ok shape) last ∧ workspace.Notes last
  enterNeutral : ∀ {target : String} {node : SchemaNode} {workspace : Workspace},
    context.model.node? target = some node → node.isUnconstrained = true →
    workspace.resolver.emitted = (Workspace.ofContext context).resolver.emitted →
    workspace.resolver.state target = .pending →
    Workspace.EntersNeutral context target node workspace ((outside.enter target).run workspace).2 ∧
      Workspace.EntersNeutral context target node workspace ((other.enter target).run workspace).2
  expandNeutral : ∀ {target : String} (path : String) (workspace : Workspace),
    context.IsNeutral target →
    (other.expand target path).Ends workspace (.ok .unconstrained) workspace

/--
What is asked of two nodes in scopes of the same name keeps pace, if no name that is made up inside is held
for a neutral component schema.
-/
structure WalksPace (context : Context) (final : Registry) (active : List String) (uses : String → Prop)
    (node : SchemaNode) (walk also : NodeWalk) : Prop where
  declare : ∀ {scope place : Scope} (depth : Nat), place.name = scope.name →
    scope.Allows context context.FreesNeutral .declared node →
    Paces context final active uses [] Shape.mentions Eq (walk.declare scope depth)
      (also.declare place depth)
  expression : ∀ {scope place : Scope} (depth : Nat), place.name = scope.name →
    scope.Allows context context.FreesNeutral .used node →
    Paces context final active uses [] TypeExpr.mentions Eq (walk.expression scope depth)
      (also.expression place depth)
  contribute : ∀ {scope place : Scope} (depth : Nat), place.name = scope.name →
    scope.Allows context context.FreesNeutral .contributed node →
    Paces context final active uses [] MemberShape.mentions Eq (walk.contribute scope depth)
      (also.contribute place depth)
  expand : ∀ {scope place : Scope}, place.name = scope.name →
    scope.Allows context context.FreesNeutral .declared node →
    Paces context final active uses [scope.name] MemberShape.mentions Eq (walk.expand scope)
      (also.expand place)

/-- Parts with the same name in scopes of the same name have the same name. -/
theorem Scope.name_child {scope place : Scope} (sameName : place.name = scope.name) (name : String)
    (path other : String) : (place.child name other).name = (scope.child name path).name := by
  simp only [child, sameName]

/-- What places no restriction is no reference. -/
theorem SchemaNode.referenceTarget?_of_isUnconstrained {node : SchemaNode}
    (isUnconstrained : node.isUnconstrained = true) : node.kind.referenceTarget? = none := by
  obtain ⟨kind, traits⟩ := node
  cases kind <;> first | rfl | cases isUnconstrained

namespace Surroundings

/-- What places no restriction contributes nothing. -/
theorem contribute_of_isUnconstrained {outside : Surroundings} {node : SchemaNode}
    (isUnconstrained : node.isUnconstrained = true) (scope : Scope) (depth : Nat) :
    (outside.walk node).contribute scope depth = pure .unconstrained ∧
      (outside.walk node).expand scope = pure .unconstrained := by
  obtain ⟨kind, traits⟩ := node
  cases kind <;> try cases isUnconstrained
  simp only [SchemaNode.isUnconstrained, Bool.and_eq_true] at isUnconstrained
  rw [walk_any, anyWalk, if_neg (by simp [isUnconstrained.1.2])]
  simp only [isUnconstrained.2, if_true, and_self]

/-- Nor does it require anything. -/
theorem requiredMembers_of_isUnconstrained {node : SchemaNode}
    (isUnconstrained : node.isUnconstrained = true) (label : String) :
    requiredMembers node label = [] := by
  obtain ⟨kind, traits⟩ := node
  cases kind <;> first | rfl | cases isUnconstrained

/-- Required names are the same whatever the member is called. -/
theorem bare_requiredMembers (node : SchemaNode) (label other : String) :
    Intersection.bare (requiredMembers node label) =
      Intersection.bare (requiredMembers node other) := by
  unfold requiredMembers
  split
  · split <;> rfl
  · rfl

open SchemaNode (Padded Neutral)

variable {context otherContext : Context} {final : Registry} {active expanding given : List String}
  {uses : String → Prop} {outside other : Surroundings} {scope place : Scope}

namespace PacedBy

variable (paced : PacedBy context otherContext final active expanding uses outside other)

include paced

/-- A component schema that is looked up is in the same state in workspaces abreast. -/
theorem entered {target : String} {node : SchemaNode} {first also : Workspace}
    (found : context.model.node? target = some node) (isUsed : uses target)
    (inStep : first.InStep context active uses also)
    (kept : (outside.entered target first).KeptIn final) :
    (outside.entered target first).Aligned context (other.entered target also) ∧
      (other.entered target also).resolver.state target =
        (outside.entered target first).resolver.state target := by
  have consistent := inStep.orderly.consistent
  by_cases isNeutral : context.IsNeutral target
  · obtain ⟨alsoNode, alsoFound, isUnconstrained⟩ := isNeutral
    cases found.symm.trans alsoFound
    obtain ⟨name, isEmitted⟩ := (context.exists_emitted?_iff target).mpr (context.model.mem_names found)
    by_cases pending : first.resolver.state target = .pending
    · -- A neutral schema is declared here, and on the other side unless it has been ahead.
      have enters := (paced.enterNeutral found isUnconstrained consistent.emitted_eq pending).1
      have known : ((outside.enter target).run first).2.KnowsMentions context := by
        refine inStep.known.declare (enters.registry_eq isEmitted) (fun schema started => ?_) ?_
        · rw [enters.state_eq]
          split
          · simp
          · exact started
        · simp [SchemaNode.neutralDeclaration, Declaration.mentions, Shape.mentions, TypeExpr.any,
            TypeExpr.mentions]
      have rests := enters.rests found isUnconstrained inStep.rests
      rw [Surroundings.entered, if_pos pending, Surroundings.entered]
      split
      · rename_i alsoPending
        have also := (paced.enterNeutral found isUnconstrained
          (inStep.abreast.emitted_eq.trans consistent.emitted_eq) alsoPending).2
        exact ⟨⟨known, rests,
          enters.both inStep.abreast isEmitted (alsoPending.trans pending.symm) also⟩,
          also.state.trans enters.state.symm⟩
      · rename_i started
        have registered := (inStep.abreast.settled ⟨_, found, isUnconstrained⟩).resolve_left started
        have differs : also.resolver.state target ≠ first.resolver.state target := by
          rw [registered, pending]
          simp
        exact ⟨⟨known, rests, enters.catchesUp inStep.abreast consistent found isEmitted differs⟩,
          registered.trans enters.state.symm⟩
    · have sameState := inStep.abreast.state_eq pending
      rw [Surroundings.entered, if_neg pending, Surroundings.entered, sameState, if_neg pending]
      exact ⟨inStep.toAligned, sameState⟩
  · -- Any other schema is in the same state on both sides.
    have sameState := inStep.abreast.state_eq_of_restricted isNeutral
    by_cases pending : first.resolver.state target = .pending
    · rw [Surroundings.entered, if_pos pending] at kept ⊢
      rw [Surroundings.entered, if_pos (sameState.trans pending)]
      have aligned := paced.enter found isNeutral isUsed inStep pending kept
      exact ⟨aligned, aligned.abreast.state_eq_of_restricted isNeutral⟩
    · rw [Surroundings.entered, if_neg pending, Surroundings.entered, sameState, if_neg pending]
      exact ⟨inStep.toAligned, sameState⟩

/-- A reference is the use of the same name. -/
theorem reference {target : String} (isUsed : uses target) :
    Paces context final active uses given (fun type => type.mentions ++ (context.emitted? target).toList) Eq
      (outside.reference target scope) (other.reference target place) where
  keeps := paced.sound.keeps_reference target scope
  paces {first also last result} inStep _ ends kept := by
    -- Both walks look up the same target, and it is ready in both or in neither.
    obtain ⟨otherResult, otherLast, alsoEnds⟩ := (other.reference target place).exists_ends also
    refine ⟨otherResult, otherLast, alsoEnds, ?_⟩
    have looked := outside.referenceEnds ends
    have alsoLooked := other.referenceEnds alsoEnds
    have sameContext := paced.sound.context_eq
    have alsoContext := paced.context_eq
    rcases paced.pads.node?_cases target with ⟨undefined, alsoUndefined⟩ |
      ⟨node, otherNode, found, alsoFound, isPadded, _⟩
    · cases looked with
      | undefined =>
        cases alsoLooked with
        | undefined => exact ⟨.fails, inStep.toAligned⟩
        | ready isFound | unready isFound =>
          rw [alsoContext, alsoUndefined] at isFound
          cases isFound
      | ready isFound | unready isFound =>
        rw [sameContext, undefined] at isFound
        cases isFound
    · cases looked with
      | undefined isUndefined =>
        rw [sameContext, found] at isUndefined
        cases isUndefined
      | ready isFound isReady =>
        have ⟨aligned, sameState⟩ := paced.entered found isUsed inStep kept
        cases alsoLooked with
        | undefined isUndefined =>
          rw [alsoContext, alsoFound] at isUndefined
          cases isUndefined
        | ready isAlsoFound =>
          rw [sameContext, found] at isFound
          rw [alsoContext, alsoFound] at isAlsoFound
          cases isFound
          cases isAlsoFound
          refine ⟨.gives ?_, aligned⟩
          rw [aligned.abreast.emitted_eq, isPadded.inheritsNull_eq]
        | unready _ isUnready =>
          rw [sameState] at isUnready
          rcases isReady with ready | ready <;> simp [ready] at isUnready
      | unready isFound isUnready =>
        have ⟨aligned, sameState⟩ := paced.entered found isUsed inStep kept
        cases alsoLooked with
        | undefined isUndefined =>
          rw [alsoContext, alsoFound] at isUndefined
          cases isUndefined
        | ready _ isReady =>
          rw [sameState] at isReady
          rcases isUnready with unready | unready <;> simp [unready] at isReady
        | unready => exact ⟨.fails, aligned⟩

/-- A reference to a schema that places no restriction leaves workspaces abreast. -/
theorem reference_neutral {target : String} (isNeutral : context.IsNeutral target)
    {first also : Workspace} (inStep : first.InStep context active uses also) :
    ∃ type otherLast, (other.reference target place).Ends also (.ok type) otherLast ∧
      first.Abreast context otherLast := by
  obtain ⟨node, found, isUnconstrained⟩ := isNeutral
  obtain ⟨name, isEmitted⟩ := (context.exists_emitted?_iff target).mpr (context.model.mem_names found)
  have alsoFound := paced.pads.node?_of_isUnconstrained found isUnconstrained
  have ⟨abreast, registered⟩ : first.Abreast context (other.entered target also) ∧
      (other.entered target also).resolver.state target = .registered := by
    rw [Surroundings.entered]
    split
    · rename_i alsoPending
      have enters := (paced.enterNeutral found isUnconstrained
        (inStep.abreast.emitted_eq.trans inStep.orderly.consistent.emitted_eq) alsoPending).2
      refine ⟨?_, enters.state⟩
      -- The first workspace has not entered it before the other one.
      have pending : first.resolver.state target = .pending := by
        by_contra started
        rw [inStep.abreast.state_eq started] at alsoPending
        exact started alsoPending
      exact enters.overtakes inStep.abreast inStep.orderly.consistent found isUnconstrained isEmitted pending
    · rename_i started
      exact ⟨inStep.abreast,
        (inStep.abreast.settled ⟨node, found, isUnconstrained⟩).resolve_left started⟩
  obtain ⟨result, otherLast, ends⟩ := (other.reference target place).exists_ends also
  cases other.referenceEnds ends with
  | undefined isUndefined =>
    rw [paced.context_eq, alsoFound] at isUndefined
    cases isUndefined
  | ready => exact ⟨_, _, ends, abreast⟩
  | unready _ isUnready =>
    rw [registered] at isUnready
    simp at isUnready

end PacedBy

/-- The limits of arrays are the same. -/
theorem PacedBy.checkArray (paced : PacedBy context otherContext final active expanding uses outside other)
    (constraints : Constraints) (depth : Nat) :
    Paces context final active uses given (fun _ => []) Eq (outside.checkArray constraints scope depth)
      (other.checkArray constraints place depth) where
  keeps := keeps_checkArray constraints scope depth
  paces {first also last result} inStep _ ends _ := by
    obtain ⟨rfl, rfl⟩ := (outside.ends_checkArray_iff constraints scope depth result).mp ends
    refine ⟨_, _, (other.ends_checkArray_iff constraints place depth _).mpr ⟨rfl, rfl⟩, ?_,
      inStep.toAligned⟩
    rw [paced.context_eq, paced.sound.context_eq, paced.pads.config_eq]
    split
    · exact .gives rfl
    · exact .fails

/-- Both report names that no property declares. -/
theorem paces_reportUndeclared (traits : NodeTraits) :
    Paces context final active uses given (fun _ => []) Eq (outside.reportUndeclared traits scope)
      (other.reportUndeclared traits place) :=
  .reports (keeps_reportUndeclared traits scope) ends_reportUndeclared ends_reportUndeclared

/-- The fields of an object are the same. -/
theorem paces_fields (sameName : place.name = scope.name)
    {properties : List (Property (SchemaNode × SchemaNode))}
    (allowed : ∀ property ∈ properties, ∀ path,
      (scope.child (CasedName.of property.name).pascal path).Allows context context.FreesNeutral .used
        property.schema.1)
    (walks : ∀ property ∈ properties, WalksPace context final active uses property.schema.1
      (outside.walk property.schema.1) (other.walk property.schema.2))
    (padded : ∀ property ∈ properties, Padded context property.schema.1 property.schema.2) :
    Paces context final active uses given (fun found => found.flatMap fun field => field.type.mentions)
      Eq (fields scope ((properties.map (Property.map Prod.fst)).map outside.walkedProperty))
      (fields place ((properties.map (Property.map Prod.snd)).map other.walkedProperty)) := by
  induction properties generalizing given with
  | nil => exact .pure rfl (by simp)
  | cons property rest ih =>
    have ⟨first, later⟩ := List.forall_mem_cons.mp walks
    have ⟨isPadded, laterPadded⟩ := List.forall_mem_cons.mp padded
    have ⟨allowsFirst, allowsLater⟩ := List.forall_mem_cons.mp allowed
    simp only [List.map_cons, fields]
    refine (first.expression 0 (Scope.name_child sameName _ _ _) (allowsFirst _)).weaken.bind
      fun type => ?_
    refine (ih allowsLater later laterPadded).bind fun found => .pure ?_ (by simp)
    simp only [walkedProperty, walked, Property.map, isPadded.traits_eq]

/-- The values of a map are the same. -/
theorem paces_mapValue (sameName : place.name = scope.name) {value also : SchemaNode}
    (allowed : ∀ path, (scope.child "Value" path).Allows context context.FreesNeutral .used value)
    (walks : WalksPace context final active uses value (outside.walk value) (other.walk also))
    (depth : Nat) :
    Paces context final active uses given TypeExpr.mentions Eq
      (mapValue (outside.walked value) scope depth) (mapValue (other.walked also) place depth) :=
  (walks.expression depth (Scope.name_child sameName _ _ _) (allowed _)).weaken

/-- The record of an object is the same. -/
theorem paces_record (sameName : place.name = scope.name)
    {properties : List (Property (SchemaNode × SchemaNode))}
    {additional : Option (SchemaNode × SchemaNode)} {traits : NodeTraits}
    (allowed : scope.Allows context context.FreesNeutral .declared
      ⟨.object (properties.map (Property.map Prod.fst)) (additional.map Prod.fst), traits⟩)
    (listed : ∀ property ∈ properties, WalksPace context final active uses property.schema.1
      (outside.walk property.schema.1) (other.walk property.schema.2))
    (padded : ∀ property ∈ properties, Padded context property.schema.1 property.schema.2)
    (further : ∀ value ∈ additional, WalksPace context final active uses value.1 (outside.walk value.1)
      (other.walk value.2)) :
    Paces context final active uses given (fun shape => shape.types.flatMap TypeExpr.mentions) Eq
      (record ((properties.map (Property.map Prod.fst)).map outside.walkedProperty)
        ((additional.map Prod.fst).map outside.walked) scope)
      (record ((properties.map (Property.map Prod.snd)).map other.walkedProperty)
        ((additional.map Prod.snd).map other.walked) place) := by
  have inProperties (property : Property (SchemaNode × SchemaNode)) (isListed : property ∈ properties)
      (path : String) : (scope.child (CasedName.of property.name).pascal path).Allows context
        context.FreesNeutral .used property.schema.1 := fun candidate tries =>
    allowed candidate (@SchemaNode.Tries.property context _ _ _ (property.map Prod.fst) _ _
      (List.mem_map_of_mem isListed) tries)
  unfold record
  refine (paces_fields sameName inProperties listed padded).bind fun found => ?_
  simp only [Option.map_map]
  refine (Paces.mapM fun value isValue => paces_mapValue sameName (fun path candidate tries => ?_)
    (further value isValue) 0).bind fun extra => .pure rfl ?_
  · cases isValue
    exact allowed candidate (.additional tries)
  · cases extra <;> simp [RecordShape.types, List.flatMap_map]

/-- The case of a choice gets the same name. -/
theorem paces_nameMember {type : TypeExpr} {member also : Scope} (sameName : place.name = scope.name)
    (free : type.name? = none → context.FreesNeutral
      (memberCandidate (Workspace.ofContext context).registry scope.name type))
    (included : type.mentions ⊆ given) :
    Paces context final active uses given (fun name => [name]) Eq (nameMember type scope member)
      (nameMember type place also) := by
  refine ⟨keeps_nameMember _ _ included, fun {first other last result} inStep knows ends kept => ?_⟩
  unfold nameMember at ends ⊢
  cases isName : type.name? with
  | some name =>
    rw [isName] at ends
    obtain ⟨rfl, rfl⟩ := (Synthesis.ends_pure_iff name).mp ends
    exact ⟨_, _, rfl, .gives rfl, inStep.toAligned⟩
  | none =>
    -- The candidate depends on nothing of the registry but the ending of names of arrays.
    rw [isName] at ends
    have registers := ends_of_get ends
    have spelled := inStep.orderly.spelled
    have sameCandidate : memberCandidate first.registry scope.name type =
        memberCandidate (Workspace.ofContext context).registry scope.name type := by
      simp only [memberCandidate, Registry.arrayName, spelled.arraySuffix_eq,
        (Workspace.Spelled.ofContext context).arraySuffix_eq]
    have alsoCandidate : memberCandidate other.registry place.name type =
        memberCandidate (Workspace.ofContext context).registry scope.name type := by
      rw [← sameCandidate, sameName]
      simp only [memberCandidate, Registry.arrayName, inStep.abreast.registry.arraySuffix_eq]
    rw [sameCandidate] at registers
    have unnamed : (Shape.alias (type.withNullable false)).synonym? = none := isName
    have paces := @Paces.register context final active given uses (fun name => [name]) _ (free isName) _
      none false member.path also.path unnamed (by simpa [Shape.mentions] using included) (by simp)
    obtain ⟨otherResult, otherLast, alsoRegisters, rest⟩ := paces.paces inStep knows registers kept
    rw [← alsoCandidate] at alsoRegisters
    exact ⟨otherResult, otherLast, (Synthesis.ends_bind_iff _ _).mpr (.inr ⟨other, other, rfl,
      alsoRegisters⟩), rest⟩

namespace PacedBy

variable (paced : PacedBy context otherContext final active expanding uses outside other)

include paced

/-- The cases of a choice are the same. -/
theorem cases (kind : CompositionKind) (sameName : place.name = scope.name) (depth : Nat)
    {members : List (SchemaNode × SchemaNode)} (index : Nat)
    (allowed : ∀ position member, members[position]? = some member → member.1.kind.isNull = false →
      (∀ path, (scope.child ("Variant" ++ toString (index + position + 1)) path).Allows context
        context.FreesNeutral .used member.1) ∧
      ∀ candidate, member.1.CaseName context scope.name candidate → context.FreesNeutral candidate)
    (walks : ∀ member ∈ members, WalksPace context final active uses member.1 (outside.walk member.1)
      (other.walk member.2))
    (padded : ∀ member ∈ members, Padded context member.1 member.2) :
    Paces context final active uses given Prod.fst Eq
      (Surroundings.cases kind scope depth ((members.map Prod.fst).map outside.walked) index)
      (Surroundings.cases kind place depth ((members.map Prod.snd).map other.walked) index) := by
  induction members generalizing given index with
  | nil => exact .pure rfl (by simp)
  | cons member rest ih =>
    obtain ⟨first, later⟩ := List.forall_mem_cons.mp walks
    obtain ⟨isPadded, laterPadded⟩ := List.forall_mem_cons.mp padded
    have others {given : List String} := @ih given (index + 1) (fun position member isMember notNull => by
      have following := allowed (position + 1) member isMember notNull
      rwa [← Nat.add_assoc, Nat.add_right_comm index position] at following) later laterPadded
    simp only [List.map_cons, walked, Surroundings.cases, isPadded.isNull_eq]
    split
    · exact others.bind fun found => .pure rfl (by simp)
    · -- A case of a type without a name is registered for a candidate that its node allows.
      rename_i notNull
      obtain ⟨allowsUse, allowsName⟩ := allowed 0 member rfl (Bool.eq_false_iff.mpr notNull)
      refine (first.expression depth (Scope.name_child sameName _ _ _) (allowsUse _)).weaken.bindKnowing
        (fun type => member.1.MayBe context type.kind)
        (fun type => (keeps_nameMember _ _ (List.subset_append_left _ _)).bind fun name =>
          others.keeps.bind fun found => .pure (by simp))
        (fun {first last type} orderly ends => ?_) fun type other mayBe same => ?_
      · have follows := (paced.adequate.walkFollows member.1).expression
          (scope.child ("Variant" ++ toString (index + 1)) ("/" ++ kind.keyword ++ "/" ++ toString index))
          depth
        exact Yields.mayBe (follows _ _ _ orderly.consistent orderly.started ends)
      · subst same
        refine (paces_nameMember sameName (fun unnamed => allowsName _ ⟨type, mayBe, unnamed, rfl⟩)
          (List.subset_append_left _ _)).bind fun name => ?_
        exact others.bind fun found => .pure rfl (by simp)

/-- The mapping of a discriminator is the same. -/
theorem mapping {entries : List (String × String)} (refers : ∀ entry ∈ entries, uses entry.2)
    {found : Table String} (included : found.values ⊆ given) :
    Paces context final active uses given Table.values Eq (outside.mapping scope entries found)
      (other.mapping place entries found) := by
  -- Each value adds a name that is known to those that are given.
  induction entries generalizing given found with
  | nil => exact .pure rfl included
  | cons entry rest ih =>
    have ⟨isUsed, laterRefers⟩ := List.forall_mem_cons.mp refers
    obtain ⟨value, target⟩ := entry
    simp only [Surroundings.mapping]
    refine (paced.reference isUsed).bind fun type => ih laterRefers ?_
    split
    · rename_i name isName
      intro other isMember
      rcases Table.mem_values_insert isMember with rfl | isOld
      · simp [TypeExpr.mentions_of_name? isName]
      · exact List.mem_append_right _ (included isOld)
    · exact fun other isMember => List.mem_append_right _ (included isMember)

/-- The shape of a choice is the same. -/
theorem union {kind : CompositionKind} (isChoice : kind ≠ .allOf) (sameName : place.name = scope.name)
    {members : List (SchemaNode × SchemaNode)} {discriminator : Option Discriminator}
    {traits : NodeTraits}
    (allowed : scope.Allows context context.FreesNeutral .declared
      ⟨.composed kind (members.map Prod.fst) discriminator, traits⟩)
    (walks : ∀ member ∈ members, WalksPace context final active uses member.1 (outside.walk member.1)
      (other.walk member.2))
    (padded : ∀ member ∈ members, Padded context member.1 member.2)
    (refers : ∀ found ∈ discriminator, ∀ target ∈ found.mapping.values, uses target)
    (nullable : Bool) (depth : Nat) :
    Paces context final active uses given Shape.mentions Eq
      (outside.union kind ((members.map Prod.fst).map outside.walked) discriminator nullable scope
        depth)
      (other.union kind ((members.map Prod.snd).map other.walked) discriminator nullable place
        depth) := by
  -- The cases keep pace first, then what tells them apart, and both give the same to unite.
  rw [union_eq, union_eq]
  have isCase (position : Nat) (member : SchemaNode × SchemaNode)
      (isMember : members[position]? = some member) :
      (members.map Prod.fst)[position]? = some member.1 := by rw [List.getElem?_map, isMember]; rfl
  refine (paced.cases kind sameName depth 0 (fun position member isMember notNull =>
    ⟨fun path candidate tries => allowed candidate (.case isChoice (isCase position member isMember) (by
        rwa [Nat.zero_add] at tries)),
      fun candidate isName => allowed candidate (.caseName isChoice
        (List.mem_of_getElem? (isCase position member isMember)) notNull isName)⟩) walks padded).bind
    fun found => ?_
  have discriminates : ∀ {given} (value : Discriminator), value ∈ discriminator →
      Paces context final active uses given (fun found => found.mapping.values) Eq
        (outside.discriminate scope value) (other.discriminate place value) := fun value isValue =>
    (paced.mapping (fun entry isEntry => refers value isValue _ (List.mem_map_of_mem isEntry))
      (by simp)).bind fun mapping => .pure rfl (List.subset_append_left _ _)
  have mapped := @Paces.mapM context final active (found.1 ++ given) uses _ _ _ _ discriminator id id
    _ _ fun value isValue => discriminates value isValue
  simp only [Option.map_id, id] at mapped
  refine mapped.bind fun mapped => ?_
  cases isUnion : unionOf kind found.1 (nullable || found.2) mapped with
  | error error => exact .fail _ _ _ _
  | ok shape =>
    refine .pure rfl fun name isMember => ?_
    rcases (mentions_unionOf isUnion name).mp isMember with isName | ⟨value, isValue, isMapped⟩
    · simp [isName]
    · cases isValue
      simp [isMapped]

/-- What a member contributes whose own shape is known is the same, if what that names is used. -/
theorem contributionOf {shape : Shape}
    (isUsed : ∀ type schema, shape = .alias type → context.schemaOf? type = some schema →
      uses schema ∨ context.IsAtomic schema) (included : shape.mentions ⊆ given) :
    Paces context final active uses given MemberShape.mentions Eq (outside.contributionOf shape scope)
      (other.contributionOf shape place) := by
  cases shape with
  | record shape => exact .pure rfl (by rwa [Shape.mentions_record] at included)
  | enum | union => exact .pure rfl (by simp [MemberShape.mentions, MemberShape.types, TypeExpr.any,
      TypeExpr.mentions])
  | «alias» target =>
    refine .reads (fun workspace consistent => ?_) fun inStep => ?_
    · dsimp only
      rw [consistent.schemas_eq]
      split
      · -- The name of the alias is held for the schema that is expanded.
        rename_i schema named _
        obtain ⟨name, isName, held⟩ := (context.schemaOf?_eq_some_iff target schema).mp named
        refine paced.expand _ _ (isUsed target schema rfl named) fun emitted isEmitted => included ?_
        cases held.symm.trans isEmitted
        simp [Shape.mentions, TypeExpr.mentions_of_name? isName]
      · exact .pure rfl (by simp [MemberShape.mentions, MemberShape.types])
      · exact .pure rfl (by
          simpa [MemberShape.mentions, MemberShape.types, Shape.mentions] using included)
    · rw [inStep.abreast.schemas_eq]

/-- References lead to a choice in both contexts or in none. -/
theorem leadsToChoice_eq (target : String) :
    (other.context.model.node? target).any other.context.model.isUnion =
      (outside.context.model.node? target).any outside.context.model.isUnion := by
  rw [paced.context_eq, paced.sound.context_eq]
  rcases paced.pads.node?_cases target with ⟨undefined, alsoUndefined⟩ |
    ⟨node, also, found, alsoFound, isPadded, _⟩
  · rw [undefined, alsoUndefined]
    rfl
  · rw [found, alsoFound, Option.any_some, Option.any_some, paced.pads.isUnion_eq isPadded]

end PacedBy

/-- The use of a node that has to be declared is the same. -/
theorem paces_promote {node : SchemaNode} (isDeclared : node.isDeclared = true)
    (sameName : place.name = scope.name) {declare alsoDeclare : Scope → Synthesis Shape}
    (allowed : scope.Allows context context.FreesNeutral .used node)
    (paces : ∀ {scope place : Scope}, place.name = scope.name →
      scope.Allows context context.FreesNeutral .declared node →
      Paces context final active uses [] Shape.mentions Eq (declare scope) (alsoDeclare place)) :
    Paces context final active uses given TypeExpr.mentions Eq (promote node.traits scope declare)
      (promote node.traits place alsoDeclare) := by
  have inside : (⟨node.traits.candidate scope.name, scope.path⟩ : Scope).Allows context
      context.FreesNeutral .declared node := fun candidate tries =>
    allowed candidate (.promoted isDeclared tries)
  unfold promote
  dsimp only
  rw [sameName]
  refine (@paces ⟨_, scope.path⟩ ⟨_, place.path⟩ rfl inside).weaken.bind fun shape => ?_
  cases shape with
  | «alias» target => exact .pure rfl (by simp [Shape.mentions])
  | record | enum | union =>
    refine (Paces.register (allowed _ (.own isDeclared)) _ _ _ _ rfl (List.subset_append_left _ _)
      fun name => List.subset_append_left [name] _).bind fun name => .pure rfl ?_
    simp

/-- Nodes that are used directly keep pace if their types do. -/
theorem walksPace_plainWalk {node : SchemaNode} (isPlain : node.isDeclared = false)
    {expression alsoExpression : Scope → Nat → Synthesis TypeExpr}
    (paces : ∀ {scope place : Scope} (depth : Nat), place.name = scope.name →
      scope.Allows context context.FreesNeutral .declared node →
      Paces context final active uses [] TypeExpr.mentions Eq (expression scope depth)
        (alsoExpression place depth)) :
    WalksPace context final active uses node (outside.plainWalk node.traits expression)
      (other.plainWalk node.traits alsoExpression) where
  declare depth sameName allowed := by
    refine (paces_reportUndeclared node.traits).bind fun _ => ?_
    exact (paces depth sameName allowed).weaken.map (by simp [Shape.mentions])
  expression depth sameName allowed :=
    paces depth sameName fun candidate tries => allowed candidate (.plain isPlain tries)
  contribute depth sameName allowed := by
    refine (paces depth sameName fun candidate tries => allowed candidate ?_).map
      (by simp [MemberShape.mentions, MemberShape.types])
    cases isType : node.contributesType with
    | true => exact .type isType (.plain isPlain tries)
    | false => exact .parts isType tries
  expand sameName _ := .pure (by rw [sameName]) (by simp [MemberShape.mentions, MemberShape.types])

/-- What is contributed and expanded may be something else than the type. -/
theorem walksPace_contributing {node : SchemaNode} {walk also : NodeWalk}
    (walks : WalksPace context final active uses node walk also)
    {contribute alsoContribute : Scope → Nat → Synthesis MemberShape}
    {expand alsoExpand : Scope → Synthesis MemberShape}
    (contributes : ∀ {scope place : Scope} (depth : Nat), place.name = scope.name →
      scope.Allows context context.FreesNeutral .contributed node →
      Paces context final active uses [] MemberShape.mentions Eq (contribute scope depth)
        (alsoContribute place depth))
    (expands : ∀ {scope place : Scope}, place.name = scope.name →
      scope.Allows context context.FreesNeutral .declared node →
      Paces context final active uses [scope.name] MemberShape.mentions Eq (expand scope)
        (alsoExpand place)) :
    WalksPace context final active uses node { walk with contribute, expand }
      { also with contribute := alsoContribute, expand := alsoExpand } :=
  ⟨walks.declare, walks.expression, contributes, expands⟩

/-- Nodes that are declared wherever they are used keep pace if their shapes do. -/
theorem walksPace_declaredWalk {node : SchemaNode} (isDeclared : node.isDeclared = true)
    {shape alsoShape : Scope → Nat → Synthesis Shape}
    (paces : ∀ {scope place : Scope} (depth : Nat), place.name = scope.name →
      scope.Allows context context.FreesNeutral .declared node →
      Paces context final active uses [] Shape.mentions Eq (shape scope depth) (alsoShape place depth))
    {contribute alsoContribute : Scope → Nat → Synthesis MemberShape}
    {expand alsoExpand : Scope → Synthesis MemberShape}
    (contributes : ∀ {scope place : Scope} (depth : Nat), place.name = scope.name →
      scope.Allows context context.FreesNeutral .contributed node →
      (scope.Allows context context.FreesNeutral .used node →
        Paces context final active uses [] TypeExpr.mentions Eq
          ((outside.declaredWalk node.traits shape).expression scope depth)
          ((other.declaredWalk node.traits alsoShape).expression place depth)) →
      Paces context final active uses [] MemberShape.mentions Eq (contribute scope depth)
        (alsoContribute place depth))
    (expands : ∀ {scope place : Scope}, place.name = scope.name →
      scope.Allows context context.FreesNeutral .declared node →
      Paces context final active uses [scope.name] MemberShape.mentions Eq (expand scope)
        (alsoExpand place)) :
    WalksPace context final active uses node
      { outside.declaredWalk node.traits shape with contribute, expand }
      { other.declaredWalk node.traits alsoShape with
        contribute := alsoContribute, expand := alsoExpand } := by
  have declare : ∀ {scope place : Scope} (depth : Nat), place.name = scope.name →
      scope.Allows context context.FreesNeutral .declared node →
      Paces context final active uses [] Shape.mentions Eq
        ((outside.declaredWalk node.traits shape).declare scope depth)
        ((other.declaredWalk node.traits alsoShape).declare place depth) :=
    fun depth sameName allowed =>
      (paces_reportUndeclared node.traits).bind fun _ => (paces depth sameName allowed).weaken
  have expression : ∀ {scope place : Scope} (depth : Nat), place.name = scope.name →
      scope.Allows context context.FreesNeutral .used node →
      Paces context final active uses [] TypeExpr.mentions Eq
        ((outside.declaredWalk node.traits shape).expression scope depth)
        ((other.declaredWalk node.traits alsoShape).expression place depth) :=
    fun depth sameName allowed =>
      paces_promote isDeclared sameName allowed fun sameName allowed => declare depth sameName allowed
  exact ⟨declare, expression, fun depth sameName allowed =>
    contributes depth sameName allowed (expression depth sameName), expands⟩

/-- Objects keep pace if their properties do. -/
theorem walksPace_objectWalk {properties : List (Property (SchemaNode × SchemaNode))}
    {additional : Option (SchemaNode × SchemaNode)} {traits : NodeTraits}
    (listed : ∀ property ∈ properties, WalksPace context final active uses property.schema.1
      (outside.walk property.schema.1) (other.walk property.schema.2))
    (padded : ∀ property ∈ properties, Padded context property.schema.1 property.schema.2)
    (further : ∀ value ∈ additional, WalksPace context final active uses value.1 (outside.walk value.1)
      (other.walk value.2)) :
    WalksPace context final active uses
      ⟨.object (properties.map (Property.map Prod.fst)) (additional.map Prod.fst), traits⟩
      (outside.objectWalk ((properties.map (Property.map Prod.fst)).map outside.walkedProperty)
        ((additional.map Prod.fst).map outside.walked) traits)
      (other.objectWalk ((properties.map (Property.map Prod.snd)).map other.walkedProperty)
        ((additional.map Prod.snd).map other.walked) traits) := by
  have contribute {given : List String} {scope place : Scope} (sameName : place.name = scope.name)
      (allowed : scope.Allows context context.FreesNeutral .declared
        ⟨.object (properties.map (Property.map Prod.fst)) (additional.map Prod.fst), traits⟩) :
      Paces context final active uses given MemberShape.mentions Eq
        (do return .record (← record ((properties.map (Property.map Prod.fst)).map
          outside.walkedProperty) ((additional.map Prod.fst).map outside.walked) scope))
        (do return .record (← record ((properties.map (Property.map Prod.snd)).map
          other.walkedProperty) ((additional.map Prod.snd).map other.walked) place)) :=
    (paces_record sameName allowed listed padded further).map fun shape => List.subset_append_left _ _
  unfold objectWalk
  simp only [List.isEmpty_map, Option.isNone_map]
  split
  · -- With neither properties nor further values it is used as a map, but contributes a record.
    rename_i isEmpty
    have plain := @walksPace_plainWalk context final active uses outside other
      ⟨.object (properties.map (Property.map Prod.fst)) (additional.map Prod.fst), traits⟩
      (by simp [SchemaNode.isDeclared, isEmpty])
      (fun _ _ => return { kind := .map .any, nullable := traits.nullable })
      (fun _ _ => return { kind := .map .any, nullable := traits.nullable })
      fun _ _ _ => .pure rfl (by simp [TypeExpr.mentions, TypeExpr.any])
    exact walksPace_contributing plain (fun _ sameName allowed => contribute sameName
      fun candidate tries => allowed candidate (.parts rfl tries)) contribute
  · rename_i notEmpty
    exact walksPace_declaredWalk (by simp [SchemaNode.isDeclared, notEmpty])
      (fun _ sameName allowed => (paces_record sameName allowed listed padded further).map fun shape => by
        simp [Shape.mentions_record])
      (fun _ sameName allowed _ => contribute sameName fun candidate tries =>
        allowed candidate (.parts rfl tries)) contribute

end Surroundings

end ApiTypes

import ApiTypes.Proofs.Synthesis.Alarms
import ApiTypes.Proofs.Synthesis.PacedIntersections

/-!
Component schemas keep pace: inside whatever schemas in progress they are entered or expanded, in a context
whose intersections have neutral members besides they come to the same.
-/

namespace ApiTypes

open Relation

/-- What places no restriction is no choice. -/
theorem SchemaModel.isUnion_of_isUnconstrained (model : SchemaModel) {node : SchemaNode}
    (isUnconstrained : node.isUnconstrained = true) : model.isUnion node = false := by
  rw [Bool.eq_false_iff, ne_eq, isUnion_iff]
  intro isChoice
  cases isChoice <;> cases isUnconstrained

namespace Synthesis

variable {context otherContext : Context} {final : Registry} {active expanding : List String}
  {uses : String → Prop} {name : String} {node : SchemaNode}

/-- The shape of a schema that places no restriction is an alias of any type, and nothing happens. -/
theorem ends_shapeWithin_of_isUnconstrained {outside : Surroundings}
    (isUnconstrained : node.isUnconstrained = true) (scope : Scope) (workspace : Workspace) :
    (shapeWithin outside node scope).Ends workspace
      (.ok (.alias (TypeExpr.any.withNullable node.traits.nullable))) workspace := by
  -- Such a node requires no names, so there is nothing to report.
  obtain ⟨kind, traits⟩ := node
  cases kind <;> try cases isUnconstrained
  simp only [SchemaNode.isUnconstrained, Bool.and_eq_true, List.isEmpty_iff] at isUnconstrained
  have declare : (outside.walk ⟨.any, traits⟩).declare scope 0 = (do
      outside.reportUndeclared traits scope
      return .alias (TypeExpr.any.withNullable traits.nullable)) := by
    rw [Surroundings.walk_any, Surroundings.anyWalk, if_neg (by simp [isUnconstrained.1.2])]
    rfl
  have silent : outside.reportUndeclared traits scope = pure () := by
    unfold Surroundings.reportUndeclared
    rw [isUnconstrained.2]
    split <;> rfl
  rw [ends_shapeWithin_ok_iff, declare, silent, pure_bind, ends_pure_iff]
  exact ⟨⟨rfl, rfl⟩, rfl⟩

/-- A pending schema that places no restriction is declared, and nothing else happens. -/
theorem entersNeutral_enterWithin (found : otherContext.model.node? name = some node)
    (isUnconstrained : node.isUnconstrained = true) (fresh : name ∉ active) {workspace : Workspace}
    (emitted_eq : workspace.resolver.emitted = (Workspace.ofContext context).resolver.emitted)
    (pending : workspace.resolver.state name = .pending) :
    Workspace.EntersNeutral context name node workspace
      ((enterWithin otherContext active expanding name).run workspace).2 := by
  -- The schema is defined, not in progress and pending, so it is walked, which is a single step.
  rcases enterWithin_cases otherContext active expanding name workspace with
    ⟨_, undefined | isActive | started⟩ | ⟨other, result, inner, alsoFound, _, _, ends, isLast⟩
  · cases undefined.symm.trans found
  · exact absurd isActive fresh
  · exact absurd pending started
  cases found.symm.trans alsoFound
  obtain ⟨rfl, rfl⟩ := ends.unique (ends_shapeWithin_of_isUnconstrained isUnconstrained _ _)
  rw [isLast]
  refine ⟨rfl, rfl, fun other => ?_, fun {held} isEmitted => ?_⟩
  · rw [Workspace.state_conclude, Workspace.state_begin]
    split
    · rfl
    · rfl
  · have sameName : (workspace.scopeOf name).name = held := by
      rw [Context.emitted?] at isEmitted
      simp [Workspace.scopeOf, emittedName, emitted_eq, isEmitted]
    rw [sameName]
    rfl

/-- A shape is circular in both workspaces or in none, if what it may name declares an alias in both. -/
theorem circular?_eq {first other : Workspace} (consistent : Consistent context first)
    (abreast : first.Abreast context other) {shape : Shape}
    (sameAlias : ∀ type schema, shape = .alias type → context.schemaOf? type = some schema →
      first.resolver.state schema = .resolving →
        (otherContext.model.node? schema).any SchemaNode.declaresAlias =
          (context.model.node? schema).any SchemaNode.declaresAlias) :
    circular? otherContext other shape = circular? context first shape := by
  -- A schema that is ahead is registered here and pending there, and in neither case in progress.
  have sameVisiting (schema : String) :
      other.resolver.isVisiting schema = first.resolver.isVisiting schema := by
    unfold Resolver.isVisiting
    by_cases differs : other.resolver.state schema = first.resolver.state schema
    · rw [differs]
    · obtain ⟨_, _, _, pending, registered, _⟩ := abreast.neutral differs
      rw [pending, registered]
      rfl
  unfold circular?
  rw [abreast.schemas_eq, consistent.schemas_eq]
  cases shape with
  | record | enum | union => rfl
  | «alias» type =>
    change Option.filter _ (context.schemaOf? type) = Option.filter _ (context.schemaOf? type)
    cases named : context.schemaOf? type with
    | none => rfl
    | some schema =>
      rw [Option.filter_some, Option.filter_some, sameVisiting]
      cases isVisiting : first.resolver.isVisiting schema with
      | false => rfl
      | true =>
        rw [Resolver.isVisiting, decide_eq_true_eq] at isVisiting
        rw [sameAlias type schema rfl named isVisiting]

/-- A shape that has been checked is given, unless it turns out to be circular. -/
theorem ends_checked (context : Context) (scope : Scope) (shape : Shape) (workspace : Workspace) :
    (do checkAlias context scope shape; return shape : Synthesis Shape).Ends workspace
      (match circular? context workspace shape with
        | none => .ok shape
        | some schema => .error ⟨scope.path, .circularAlias schema⟩) workspace := by
  have checks := (ends_checkAlias_iff context scope shape _).mpr ⟨Eq.refl workspace, rfl⟩
  cases isCircular : circular? context workspace shape with
  | none =>
    rw [isCircular] at checks
    exact (ends_bind_iff _ _).mpr (.inr ⟨_, _, checks, rfl⟩)
  | some schema =>
    rw [isCircular] at checks
    exact (ends_bind_error_iff _ _ _).mpr (.inl checks)

/-- The shape of a component schema keeps pace if its node does. -/
theorem paces_shapeWithin {outside other : Surroundings}
    (paced : outside.PacedBy context otherContext final active expanding uses other) {also : SchemaNode}
    (isPadded : SchemaNode.Padded context node also)
    (closed : ∀ schema target, uses schema → context.Refers schema target → uses target)
    (refers : ∀ target, node.Refers target → uses target) {scope : Scope}
    (allowed : scope.Allows context context.FreesNeutral .declared node) :
    Paces context final active uses [] Shape.mentions Eq (shapeWithin outside node scope)
      (shapeWithin other also scope) where
  keeps := keeps_shapeWithin paced.sound node scope
  paces {first other last result} inStep knows ends kept := by
    have declares := (paced.walk isPadded refers).declare 0 rfl allowed
    rcases (ends_bind_iff _ _).mp ends with ⟨error, rfl, fails⟩ | ⟨shape, middle, gives, goesOn⟩
    · obtain ⟨_, _, alsoFails, sameEnd, aligned⟩ := declares.paces inStep knows fails kept
      cases sameEnd
      exact ⟨_, _, (ends_bind_error_iff _ _ _).mpr (.inl alsoFails), .fails, aligned⟩
    · obtain ⟨rfl, rfl⟩ := goesOn.unique (ends_checked outside.context scope shape middle)
      obtain ⟨_, otherLast, alsoGives, sameEnd, after⟩ := declares.inStep inStep knows gives kept
      cases sameEnd with
      | gives isSame =>
      subst isSame
      have orderly := inStep.orderly
      have yields := (paced.adequate.walkFollows node).declare scope 0 _ _ _ orderly.consistent
        orderly.started gives
      -- What the shape names may be in progress only if it leads to itself, or if it is atomic.
      have sameCheck : circular? otherContext otherLast shape = circular? context last shape := by
        refine circular?_eq after.orderly.consistent after.abreast fun type schema isAlias named resolving =>
          ?_
        subst isAlias
        refine paced.pads.declaresAlias_eq ?_
        rcases yields.named orderly.consistent schema named with
          ⟨target, composes, path⟩ | isAtomic | registered
        · have isUsed : uses schema := by
            clear named resolving
            induction path with
            | refl => exact refers target composes.refers
            | tail _ composes ih => exact closed _ _ ih composes.refers
          exact .inl (after.led schema resolving schema isUsed)
        · exact .inr isAtomic
        · simp [resolving] at registered
      refine ⟨_, otherLast, (ends_bind_iff _ _).mpr (.inr ⟨_, _, alsoGives, ends_checked _ scope _ _⟩), ?_,
        after.toAligned⟩
      rw [paced.sound.context_eq, paced.context_eq, sameCheck]
      split
      · exact .gives rfl
      · exact .fails

/-- What is declared before a schema in progress is concluded is still declared then. -/
theorem keptIn_of_conclude {inner : Workspace} {held : String}
    (undeclared : inner.registry.get? held = none) {result : Except LocatedFailure Shape}
    (kept : (inner.conclude name held node result).KeptIn final) : inner.KeptIn final := by
  intro other declaration stands
  refine kept other declaration ?_
  cases result with
  | error => exact stands
  | ok shape =>
    rw [Workspace.conclude, Registry.fill, Registry.get?_declare, if_neg, stands]
    rintro rfl
    cases undeclared.symm.trans stands

/-- A schema that begins leads to whatever its node refers to, and so does what was in progress before. -/
theorem inStep_begin (found : context.model.node? name = some node) (isUsed : uses name)
    (restricted : ¬context.IsNeutral name) {first other : Workspace}
    (inStep : first.InStep context active uses other) (pending : first.resolver.state name = .pending) :
    (first.begin name).InStep context (name :: active) (TransGen context.Refers name)
      (other.begin name) where
  known := (invariance_knowsMentions context).begin pending inStep.known
  rests := inStep.rests.begin pending
  abreast := inStep.abreast.begin restricted
  orderly := ⟨inStep.orderly.consistent.begin found pending, started_begin inStep.orderly.started,
    inStep.orderly.spelled.same rfl⟩
  declared := inStep.declared.mono (fun _ _ => id) fun schema isRegistered =>
    Workspace.state_of_begin isRegistered (by simp)
  led schema isResolving target leads := by
    rw [Workspace.state_begin] at isResolving
    split at isResolving
    · rename_i isBegun
      exact isBegun ▸ leads
    · exact (inStep.led schema isResolving name isUsed).trans leads

/-- A component schema that places a restriction comes to the same if its node does. -/
theorem aligned_enterWithin (pads : context.Pads otherContext) (spares : context.SparesNeutral)
    (found : context.model.node? name = some node) (restricted : ¬context.IsNeutral name)
    (isUsed : uses name) (fresh : name ∉ active)
    (paced : (within context (!expanding.isEmpty) (name :: active) expanding).PacedBy context
      otherContext final (name :: active) expanding (TransGen context.Refers name)
      (within otherContext (!expanding.isEmpty) (name :: active) expanding))
    {first other : Workspace} (inStep : first.InStep context active uses other)
    (pending : first.resolver.state name = .pending)
    (kept : ((enterWithin context active expanding name).run first).2.KeptIn final) :
    ((enterWithin context active expanding name).run first).2.Aligned context
      ((enterWithin otherContext active expanding name).run other).2 := by
  obtain ⟨node, also, isFound, alsoFound, isPadded, _⟩ :=
    (pads.node?_cases name).resolve_left fun undefined => by cases found.symm.trans undefined.1
  have alsoPending := (inStep.abreast.state_eq_of_restricted restricted).trans pending
  rcases enterWithin_cases context active expanding name first with
    ⟨_, undefined | isActive | started⟩ | ⟨_, result, inner, again, _, _, ends, isLast⟩
  · cases undefined.symm.trans found
  · exact absurd isActive fresh
  · exact absurd pending started
  cases isFound.symm.trans again
  rcases enterWithin_cases otherContext active expanding name other with
    ⟨_, undefined | isActive | started⟩ | ⟨_, otherResult, otherInner, again, _, _, alsoEnds, isOther⟩
  · cases undefined.symm.trans alsoFound
  · exact absurd isActive fresh
  · exact absurd alsoPending started
  cases alsoFound.symm.trans again
  rw [isLast] at kept ⊢
  rw [isOther]
  -- Both begin in the same scope, and what their walks come to is concluded under the same name.
  have begins := inStep_begin isFound isUsed restricted inStep pending
  have isEmitted := inStep.orderly.consistent.emitted?_eq_scopeOf found
  have paces := paces_shapeWithin paced isPadded (fun _ _ leads refers => leads.tail refers)
    (fun _ refers => .single ⟨_, isFound, refers⟩) (spares isFound isEmitted)
  have begun := begins.orderly
  have ⟨runs, known⟩ := paces.keeps _ _ _ begun.consistent begun.started (by simp) ends
  have ⟨inside, grows⟩ := runs.consistent begun.consistent
  have undeclared := inside.undeclared_of_resolving isEmitted grows.resolving
  obtain ⟨alsoResult, alsoInner, paceEnds, sameEnd, after⟩ :=
    paces.inStep begins (by simp) ends (keptIn_of_conclude undeclared kept)
  rw [inStep.abreast.scopeOf_eq] at alsoEnds
  obtain ⟨rfl, rfl⟩ := alsoEnds.unique paceEnds
  rw [inStep.abreast.scopeOf_eq]
  refine ⟨?_, ?_, after.abreast.conclude restricted isEmitted isPadded.traits_eq sameEnd⟩
  · -- What the shape mentions is known.
    cases result with
    | error =>
      exact fun name mentioned mentions =>
        (after.known name mentioned mentions).mono id fun _ started => inner.started_conclude started _ _ _ _
    | ok shape =>
      exact after.known.declare rfl (fun _ started => inner.started_conclude started _ _ _ _)
        fun mention isMentioned => known shape rfl mention isMentioned
  · -- What the node refers to is ready, and whatever is still in progress leads to it.
    refine after.rests.conclude isFound grows.resolving (fun shape isOk target refers => ?_)
      fun schema resolving target refers => after.led schema resolving target (.single ⟨_, isFound, refers⟩)
    subst isOk
    have adequate := adequate_within context (!expanding.isEmpty) (name :: active) expanding
    have yields := (adequate.walkFollows _).declare (first.scopeOf name) 0 _ _ _ begun.consistent
      begun.started ((ends_shapeWithin_ok_iff _ _ _ _).mp ends).1
    exact yields.explores begun.consistent target refers

/--
Component schemas that refer to none but further ones of them are used inside schemas in progress and
expansions. None of these is neutral, and what is expanded leads to all that is used.
-/
structure Stacked (context : Context) (active expanding : List String) (uses : String → Prop) : Prop where
  closed : ∀ schema target, uses schema → context.Refers schema target → uses target
  restricted : ∀ schema ∈ active ++ expanding, ¬context.IsNeutral schema
  refined : ∀ schema ∈ expanding, ¬context.IsAtomic schema
  leads : ∀ schema ∈ expanding, ∀ target, uses target → TransGen context.Refers schema target

namespace Stacked

variable (stacked : Stacked context active expanding uses)

include stacked

/-- Whatever a used schema leads to is used. -/
theorem uses_of_leads {target : String} (isUsed : uses name)
    (leads : TransGen context.Refers name target) : uses target := by
  induction leads with
  | single refers => exact stacked.closed _ _ isUsed refers
  | tail _ refers ih => exact stacked.closed _ _ ih refers

/-- A used schema that is not neutral may begin. -/
theorem begin (isUsed : uses name) (isRestricted : ¬context.IsNeutral name) :
    Stacked context (name :: active) expanding (TransGen context.Refers name) where
  closed _ _ := .tail
  restricted := List.forall_mem_cons.mpr ⟨isRestricted, stacked.restricted⟩
  refined := stacked.refined
  leads schema isExpanding _ leads := (stacked.leads schema isExpanding name isUsed).trans leads

/-- A used schema that is neither neutral nor atomic may be expanded. -/
theorem expand (isUsed : uses name) (isRestricted : ¬context.IsNeutral name)
    (isRefined : ¬context.IsAtomic name) :
    Stacked context active (name :: expanding) (TransGen context.Refers name) where
  closed _ _ := .tail
  restricted schema isOne := by
    rcases List.mem_append.mp isOne with isActive | isExpanding
    · exact stacked.restricted schema (List.mem_append_left _ isActive)
    · rcases List.mem_cons.mp isExpanding with rfl | isExpanding
      · exact isRestricted
      · exact stacked.restricted schema (List.mem_append_right _ isExpanding)
  refined := List.forall_mem_cons.mpr ⟨isRefined, stacked.refined⟩
  leads := List.forall_mem_cons.mpr ⟨fun _ => id, fun schema isExpanding _ leads =>
    (stacked.leads schema isExpanding name isUsed).trans leads⟩

/-- What is settled and does not lead to itself can be expanded once more. -/
theorem exists_expansion {path : String} (isUsed : uses name)
    (secludes : context.Secludes (ReflTransGen context.Refers name)) {workspace : Workspace}
    (settles : workspace.Settles context active (ReflTransGen context.Refers name)) :
    ∃ shape last, (expandWithin context active expanding name path).Ends workspace (.ok shape) last ∧
      workspace.Notes last :=
  Synthesis.exists_expansion active expanding path secludes (fun schema isExpanding =>
    ⟨fun leads => secludes.acyclic name .refl
      (.trans_right leads (stacked.leads schema isExpanding name isUsed)),
      stacked.refined schema isExpanding⟩) settles

end Stacked

/-- Expansions of component schemas keep pace if their nodes do. -/
theorem paces_expandWithin (pads : context.Pads otherContext) (spares : context.SparesNeutral)
    (isUsed : uses name ∨ context.IsAtomic name)
    (closed : ∀ target, uses name → TransGen context.Refers name target → uses target)
    (paced : ∀ node, context.model.node? name = some node → name ∉ expanding → uses name →
      ¬context.IsNeutral name → ¬context.IsAtomic name →
        (within context true active (name :: expanding)).PacedBy context otherContext final active
          (name :: expanding) (TransGen context.Refers name)
          (within otherContext true active (name :: expanding)))
    {given : List String} (path place : String)
    (covered : ∀ emitted, context.emitted? name = some emitted → emitted ∈ given) :
    Paces context final active uses given MemberShape.mentions Eq
      (expandWithin context active expanding name path)
      (expandWithin otherContext active expanding name place) := by
  rw [expandWithin_eq, expandWithin_eq]
  split
  · exact .fail _ _ _ _
  rename_i fresh
  rcases pads.node?_cases name with ⟨undefined, alsoUndefined⟩ |
    ⟨node, also, found, alsoFound, isPadded, _⟩
  · rw [undefined, alsoUndefined]
    exact .fail _ _ _ _
  rw [found, alsoFound]
  dsimp only
  rw [pads.isUnion_eq isPadded]
  split
  · exact .pure rfl (by simp [MemberShape.mentions, MemberShape.types])
  obtain ⟨emitted, isEmitted⟩ := (context.exists_emitted?_iff name).mpr (context.model.mem_names found)
  have isName {workspace : Workspace} (consistent : Consistent context workspace) :
      emittedName workspace name name = emitted := by
    simp [emittedName, consistent.emitted_get?, isEmitted]
  refine .reads (fun workspace consistent => ?_) fun inStep => by
    simp only [emittedName, inStep.abreast.emitted_eq]
  rw [isName consistent]
  by_cases isNeutral : context.IsNeutral name
  · -- A schema that places no restriction is not walked in either of the surroundings.
    obtain ⟨_, again, isUnconstrained⟩ := isNeutral
    cases found.symm.trans again
    rw [isPadded.eq_of_isUnconstrained isUnconstrained,
      (Surroundings.contribute_of_isUnconstrained isUnconstrained _ 0).2,
      (Surroundings.contribute_of_isUnconstrained isUnconstrained _ 0).2]
    exact .pure rfl (by simp [MemberShape.mentions, MemberShape.types])
  by_cases isAtomic : node.isAtomic = true
  · -- Nor is one that is taken as a whole.
    rw [expand_of_isAtomic _ isAtomic, expand_of_isAtomic _ (isPadded.isAtomic_eq.trans isAtomic)]
    exact .pure rfl (by simpa [MemberShape.mentions, MemberShape.types] using covered emitted isEmitted)
  have notAtomic : ¬context.IsAtomic name := context.not_isAtomic found isAtomic
  have isOne := isUsed.resolve_right notAtomic
  have paced := paced node found (by simpa using fresh) isOne isNeutral notAtomic
  have expands := (paced.walk isPadded fun _ refers => .single ⟨node, found, refers⟩).expand
    (Eq.refl (Scope.mk emitted (Pointer.ofSchema name)).name) (spares found isEmitted)
  refine (expands.restrict fun target leads => closed target isOne leads).mono (fun _ isMember => ?_)
    fun _ => List.subset_append_left _ _
  cases List.mem_singleton.mp isMember
  exact covered emitted isEmitted

/-- Component schemas keep pace inside schemas in progress and expansions that place restrictions. -/
theorem pacedBy_within (pads : context.Pads otherContext) (spares : context.SparesNeutral)
    (reflexive : final.IsReflexive) (muted alsoMuted : Bool) (active expanding : List String)
    (stacked : Stacked context active expanding uses) :
    (within context muted active expanding).PacedBy context otherContext final active expanding uses
      (within otherContext alsoMuted active expanding) := by
  -- The induction is on what may still begin or be expanded.
  induction active, expanding using withinInduction context.model generalizing muted alsoMuted uses with
  | step active expanding inside expansion =>
    refine ⟨sound_within context muted active expanding, adequate_within context muted active expanding,
      rfl, pads, reflexive,
      fun schema target isUsed includes => stacked.closed schema target isUsed includes.refers,
      ?enter, ?expand, fun _ isUsed secludes => stacked.exists_expansion isUsed secludes, ?enterNeutral,
      ?expandNeutral⟩
    case enter =>
      intro target node first also found isRestricted isUsed inStep pending kept
      have fresh : target ∉ active := fun isActive => inStep.orderly.started target isActive pending
      exact aligned_enterWithin pads spares found isRestricted isUsed fresh
        (inside target node found fresh _ _ (stacked.begin isUsed isRestricted)) inStep pending kept
    case expand =>
      intro given target path place isUsed covered
      exact paces_expandWithin pads spares isUsed (fun other isOne leads => stacked.uses_of_leads isOne leads)
        (fun node found fresh isOne isRestricted isRefined => expansion target node found fresh true true
          (stacked.expand isOne isRestricted isRefined)) path place covered
    case enterNeutral =>
      intro target node workspace found isUnconstrained emitted_eq pending
      have fresh : target ∉ active := fun isActive =>
        stacked.restricted target (List.mem_append_left _ isActive) ⟨node, found, isUnconstrained⟩
      exact ⟨entersNeutral_enterWithin found isUnconstrained fresh emitted_eq pending,
        entersNeutral_enterWithin (pads.node?_of_isUnconstrained found isUnconstrained) isUnconstrained
          fresh emitted_eq pending⟩
    case expandNeutral =>
      intro target path workspace isNeutral
      have fresh : target ∉ expanding := fun isExpanding =>
        stacked.restricted target (List.mem_append_right _ isExpanding) isNeutral
      obtain ⟨node, found, isUnconstrained⟩ := isNeutral
      refine ends_expandWithin fresh (pads.node?_of_isUnconstrained found isUnconstrained)
        (otherContext.model.isUnion_of_isUnconstrained isUnconstrained) ?_
      rw [(Surroundings.contribute_of_isUnconstrained isUnconstrained _ 0).2]
      rfl

/-- A component schema is entered by looking it up. -/
theorem entered_within (muted : Bool) (active expanding : List String) (name : String)
    (workspace : Workspace) : (within context muted active expanding).entered name workspace =
      ((enterWithin context active expanding name).run workspace).2 := by
  unfold Surroundings.entered
  split
  · rfl
  · rename_i started
    rcases enterWithin_cases context active expanding name workspace with
      ⟨same, _⟩ | ⟨_, _, _, _, _, pending, _⟩
    · exact same.symm
    · exact absurd pending started

/-- Component schemas come to the same, one after the other. -/
theorem inStep_forM_enter (pads : context.Pads otherContext) (spares : context.SparesNeutral)
    (reflexive : final.IsReflexive) (names : List String) {first other : Workspace}
    (inStep : first.InStep context [] (fun _ => True) other)
    (kept : ((names.forM (enter context)).run first).2.KeptIn final) :
    ((names.forM (enter context)).run first).2.InStep context [] (fun _ => True)
      ((names.forM (enter otherContext)).run other).2 := by
  -- What is declared while one schema is entered is kept while the others are.
  induction names generalizing first other with
  | nil => exact inStep
  | cons name rest ih =>
    have runs := runs_enter inStep.orderly.consistent name
    have between := (runs.consistent inStep.orderly.consistent).1
    have stays := ((runs_forM_enter rest between).consistent between).2.keptIn kept
    have aligned : ((enter context name).run first).2.Aligned context
        ((enter otherContext name).run other).2 := by
      unfold enter
      rcases pads.node?_cases name with ⟨undefined, alsoUndefined⟩ | ⟨_, _, found, _⟩
      · rw [enterWithin_of_undefined undefined, enterWithin_of_undefined alsoUndefined]
        exact inStep.toAligned
      · have paced := pacedBy_within pads spares reflexive false false [] []
          ⟨fun _ _ _ _ => trivial, by simp, by simp, by simp⟩
        have entered := paced.entered found trivial inStep (by rwa [entered_within])
        rw [entered_within, entered_within] at entered
        exact entered.1
    exact ih (inStep.runs runs aligned) kept

end Synthesis

/-- In the beginning, workspaces for contexts that differ in neutral members alone are in step. -/
theorem Context.Pads.inStep_ofContext {context otherContext : Context} (pads : context.Pads otherContext) :
    (Workspace.ofContext context).InStep context [] (fun _ => True)
      (Workspace.ofContext otherContext) := by
  have idle (schema : String) : (Workspace.ofContext context).resolver.state schema = .pending :=
    Workspace.state_ofContext context schema
  rw [pads.ofContext_eq]
  refine {
    known := ?_
    rests := fun schema _ isRegistered => by simp [idle] at isRegistered
    abreast := {
      registry := ⟨rfl, rfl, fun _ => rfl, fun _ => rfl⟩
      emitted_eq := rfl
      schemas_eq := rfl
      neutral := fun differs => absurd rfl differs
      settled := fun _ => .inl (idle _) }
    orderly := ⟨.ofContext context, by simp [Started], .ofContext context⟩
    declared := Reachable.initial.hasDeclaredAll
    led := fun schema isResolving => by simp [idle] at isResolving }
  rintro name mentioned ⟨declaration, found, _⟩
  simp [Workspace.get?_ofContext] at found

end ApiTypes

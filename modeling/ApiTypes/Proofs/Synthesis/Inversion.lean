import ApiTypes.Proofs.Composition
import ApiTypes.Proofs.Node
import ApiTypes.Proofs.Synthesis.Outcome

/-! How the steps of walks end that look at limits, at references, and at names of members. -/

namespace ApiTypes

/-- The limit that an array with its constraints at a depth exceeds, if there is one. -/
def Config.exceeded? (config : Config) (constraints : Constraints) (depth : Nat) :
    Option ArrayLimit :=
  if config.maxArrayDepth < depth then some (.depth depth config.maxArrayDepth)
  else match config.maxItems, constraints.maxItems with
    | some limit, some maxItems => if limit < maxItems then some (.items maxItems limit) else none
    | _, _ => none

/-- Whether a use of a node's type admits null because its declaration does not say so. -/
def SchemaNode.inheritsNull (node : SchemaNode) : Bool :=
  node.traits.nullable && (match node.kind with
    | .object .. | .enum .. => true
    | _ => false)

/-- The schema for which an intersection stands that places no restriction but a reference. -/
def SchemaNode.onlyReference? (members : List SchemaNode) : Option String :=
  match significant members with
  | [only] => only.kind.referenceTarget?
  | _ => none

/-- The schema for which an intersection stands is that of one of its members. -/
theorem SchemaNode.mem_of_onlyReference? {members : List SchemaNode} {target : String}
    (isOnly : onlyReference? members = some target) :
    ∃ traits, (⟨.reference target, traits⟩ : SchemaNode) ∈ members := by
  unfold onlyReference? at isOnly
  split at isOnly
  · rename_i only isSignificant
    have isMember : only ∈ members :=
      (List.mem_filter.mp (isSignificant ▸ List.mem_singleton_self only)).1
    obtain ⟨kind, traits⟩ := only
    cases kind <;> cases isOnly
    exact ⟨traits, isMember⟩
  · cases isOnly

/--
The members of an intersection that stands for a reference are that one and others without a meaning.
-/
theorem SchemaNode.cases_of_onlyReference? {nodes : List SchemaNode} {target : String}
    (isOnly : onlyReference? nodes = some target) :
    ∀ node ∈ nodes, node.isUnconstrained = true ∨ node.kind = .reference target := by
  intro node isNode
  unfold onlyReference? at isOnly
  split at isOnly
  · rename_i only isAlone
    cases isUnconstrained : node.isUnconstrained with
    | true => exact .inl rfl
    | false =>
      have isSignificant : node ∈ significant nodes :=
        List.mem_filter.mpr ⟨isNode, by rw [isUnconstrained]; rfl⟩
      cases List.mem_singleton.mp (isAlone ▸ isSignificant)
      obtain ⟨kind, traits⟩ := node
      cases kind <;> cases isOnly
      exact .inr rfl
  · cases isOnly

/-- Whether a kind is an enumeration. -/
def NodeKind.isEnum {σ : Type} : NodeKind σ → Bool
  | enum _ _ => true
  | _ => false

/-- Whether a shape is an enumeration. -/
def Shape.isEnum : Shape → Bool
  | enum _ _ => true
  | record _ | union _ | «alias» _ => false

/-- Equal shapes are both enumerations, or neither is. -/
theorem Shape.isEnum_eq_of_beq {left right : Shape} (same : (left == right) = true) :
    left.isEnum = right.isEnum := by
  cases left <;> cases right <;> first | rfl | cases same

/-- What members merge into is no enumeration. -/
theorem isEnum_mergeAllOf {members : List IntersectionMember} {merged : Merged}
    {equivalent : TypeKind TypeExpr → TypeKind TypeExpr → Bool}
    (isMerged : mergeAllOf members equivalent = .ok merged) : merged.shape.isEnum = false := by
  obtain ⟨_, ⟨_, _, isSingle⟩ | ⟨_, _, _, _, isRecord⟩⟩ := Intersection.mergeAllOf_cases isMerged
  · rw [isSingle]
    unfold Intersection.single
    split <;> rfl
  · rw [isRecord]
    rfl

/-- A choice is no enumeration. -/
theorem isEnum_unionOf {kind : CompositionKind} {names : List String} {nullable : Bool}
    {discriminator : Option Discriminator} {shape : Shape}
    (isUnion : unionOf kind names nullable discriminator = .ok shape) : shape.isEnum = false := by
  unfold unionOf at isUnion
  split at isUnion <;> cases isUnion <;> rfl

namespace Surroundings

variable (outside : Surroundings) {first last : Workspace}

/-- The workspace in which a reference to a component schema is looked up at last. -/
def entered (target : String) (workspace : Workspace) : Workspace :=
  if workspace.resolver.state target = .pending then ((outside.enter target).run workspace).2
  else workspace

/-- Checking an array changes nothing, and fails if a limit is exceeded. -/
theorem ends_checkArray_iff (constraints : Constraints) (scope : Scope) (depth : Nat)
    (result : Except LocatedFailure Unit) :
    (outside.checkArray constraints scope depth).Ends first result last ↔
      last = first ∧ result = match outside.context.config.exceeded? constraints depth with
        | none => .ok ()
        | some limit => .error ⟨scope.path, .arrayLimit limit⟩ := by
  unfold checkArray Config.exceeded?
  simp only
  split
  · cases result <;> simp [and_comm]
  · cases outside.context.config.maxItems <;> cases constraints.maxItems
    case some.some limit maxItems => by_cases exceeds : limit < maxItems <;> simp [exceeds, and_comm]
    all_goals simp [and_comm]

/-- How a reference to a component schema may end. -/
inductive ReferenceEnds (target : String) (scope : Scope) (first : Workspace) :
    Except LocatedFailure TypeExpr → Workspace → Prop
  | undefined (isUndefined : outside.context.model.node? target = none) :
    ReferenceEnds target scope first (.error ⟨scope.path, .undefinedReference target⟩) first
  | ready {node : SchemaNode} (found : outside.context.model.node? target = some node)
    (isReady : (outside.entered target first).resolver.state target = .resolving ∨
      (outside.entered target first).resolver.state target = .registered) :
    ReferenceEnds target scope first
      (.ok ((TypeExpr.named
        (((outside.entered target first).resolver.emitted.get? target).getD target)).withNullable
          node.inheritsNull))
      (outside.entered target first)
  | unready {node : SchemaNode} (found : outside.context.model.node? target = some node)
    (isUnready : (outside.entered target first).resolver.state target = .failed ∨
      (outside.entered target first).resolver.state target = .pending) :
    ReferenceEnds target scope first (.error ⟨scope.path, .dependencyFailed target⟩)
      (outside.entered target first)

/-- Looking a component schema up changes nothing. -/
theorem outcome_resolve (target path : String) (workspace : Workspace) :
    (outside.resolve target path).outcome workspace =
      ((workspace.resolver.resolve outside.context.model target).mapError
        fun error => ⟨path, error.failure⟩, workspace) := by
  have reads : (get : Synthesis Workspace).outcome workspace = (.ok workspace, workspace) := rfl
  rw [resolve, Synthesis.outcome_bind, reads]
  dsimp only
  cases workspace.resolver.resolve outside.context.model target <;> rfl

/-- A reference ends in one of these ways. -/
theorem referenceEnds {target : String} {scope : Scope} {result : Except LocatedFailure TypeExpr}
    (ends : (outside.reference target scope).Ends first result last) :
    outside.ReferenceEnds target scope first result last := by
  have outcome : (outside.reference target scope).outcome first = (result, last) := ends
  cases found : outside.context.model.node? target with
  | none =>
    simp only [reference, Synthesis.outcome_bind, outcome_resolve, Resolver.resolve, found,
      Synthesis.mapError_error] at outcome
    cases outcome
    exact .undefined found
  | some node =>
    -- What is found at last is the state after the schema has been entered if it was pending.
    have lookedUp : (outside.reference target scope).outcome first =
        match (outside.entered target first).resolver.state target with
        | .resolving | .registered =>
          (.ok ((TypeExpr.named
            (((outside.entered target first).resolver.emitted.get? target).getD
              target)).withNullable node.inheritsNull), outside.entered target first)
        | .failed | .pending =>
          (.error ⟨scope.path, .dependencyFailed target⟩, outside.entered target first) := by
      cases state : first.resolver.state target with
      | pending =>
        have entered : outside.entered target first = ((outside.enter target).run first).2 :=
          if_pos state
        have lifted : (liftM (outside.enter target) : Synthesis Unit).outcome first =
            (.ok (), ((outside.enter target).run first).2) := rfl
        rw [entered]
        cases after : ((outside.enter target).run first).2.resolver.state target <;>
        · simp only [reference, Synthesis.outcome_bind, outcome_resolve, Resolver.resolve, found,
            state, Synthesis.mapError_ok, Synthesis.mapError_error, lifted, after]
          rfl
      | failed | resolving | registered =>
        have entered : outside.entered target first = first := if_neg (by simp [state])
        rw [entered]
        simp only [reference, Synthesis.outcome_bind, outcome_resolve, Resolver.resolve, found,
          state, Synthesis.mapError_ok, Synthesis.mapError_error]
        rfl
    rw [lookedUp] at outcome
    cases state : (outside.entered target first).resolver.state target with
    | resolving =>
      simp only [state] at outcome
      cases outcome
      exact .ready found (.inl state)
    | registered =>
      simp only [state] at outcome
      cases outcome
      exact .ready found (.inr state)
    | failed =>
      simp only [state] at outcome
      cases outcome
      exact .unready found (.inl state)
    | pending =>
      simp only [state] at outcome
      cases outcome
      exact .unready found (.inr state)

/-- The member for names that an object requires and does not declare. -/
def requiredMembers (node : SchemaNode) (label : String) : List IntersectionMember :=
  match node.kind with
  | .object .. =>
    if node.traits.required.isEmpty then [] else [{ label, shape := .required node.traits.required }]
  | _ => []

/-- A member that refers to a component schema is looked up, and then expanded. -/
theorem members_cons_reference (scope : Scope) (depth : Nat) (target : String) (traits : NodeTraits)
    (walk : NodeWalk) (rest : List WalkedNode) (index : Nat) :
    outside.members scope depth ((⟨.reference target, traits⟩, walk) :: rest) index = do
      let place := scope.below ("/allOf/" ++ toString index)
      let type ← outside.reference target place
      let shape ← outside.expand target place.path
      let others ← outside.members scope depth rest (index + 1)
      return { label := target, reference := type.name?, shape } :: others := by
  simp only [members, pure_bind]
  rfl

/-- Any other member contributes what its walk says. -/
theorem members_cons {node : SchemaNode} (isOther : node.kind.referenceTarget? = none) (scope : Scope)
    (depth : Nat) (walk : NodeWalk) (rest : List WalkedNode) (index : Nat) :
    outside.members scope depth ((node, walk) :: rest) index = do
      let shape ← walk.contribute (scope.below ("/allOf/" ++ toString index)) depth
      let others ← outside.members scope depth rest (index + 1)
      return { label := toString index, shape } ::
        (requiredMembers node (toString index) ++ others) := by
  obtain ⟨kind, traits⟩ := node
  cases kind with
  | reference target => simp [NodeKind.referenceTarget?] at isOther
  | primitive | enum | array | map | object | composed | any | null =>
    simp only [members, pure_bind]
    rfl

/-- An intersection that stands for a single reference is an alias, unless that is a choice. -/
theorem intersection_of_reference {nodes : List WalkedNode} {target : String}
    (isOnly : SchemaNode.onlyReference? (nodes.map Prod.fst) = some target) (scope : Scope)
    (depth : Nat) :
    outside.intersection nodes scope depth =
      if (outside.context.model.node? target).any outside.context.model.isUnion then
        Synthesis.failComposition (scope.below "/allOf/0").path (.nestedUnion target)
      else do return .alias (← outside.reference target (scope.below "/allOf/0")) := by
  unfold intersection
  simp only
  split
  · rename_i found isFound
    cases isFound.symm.trans isOnly
    split <;> rfl
  · rename_i isNone
    cases isNone.symm.trans isOnly

/-- Reports what a merge could not express. -/
def reportNotes (notes : List MergeNote) (scope : Scope) : Synthesis Unit := do
  if !outside.muted then
    for note in notes do
      Synthesis.report scope.path (.merged note)

/-- Any other intersection merges what its members contribute. -/
theorem intersection_of_members {nodes : List WalkedNode}
    (isOther : SchemaNode.onlyReference? (nodes.map Prod.fst) = none) (scope : Scope)
    (depth : Nat) :
    outside.intersection nodes scope depth = do
      let inputs ← outside.members scope depth nodes 0
      let workspace ← get
      let merged ← Synthesis.liftComposition scope.path
        (mergeAllOf inputs workspace.registry.equivalent)
      outside.reportNotes merged.notes scope
      return merged.shape := by
  unfold intersection reportNotes
  simp only
  split
  · rename_i found isFound
    cases isFound.symm.trans isOther
  · refine bind_congr fun inputs => bind_congr fun workspace => bind_congr fun merged => ?_
    split
    · simp only [bind_assoc, pure_bind]
    · rfl

/-- Reporting notes always ends, and changes no declaration. -/
theorem ends_reportNotes {notes : List MergeNote} {scope : Scope}
    {result : Except LocatedFailure Unit}
    (ends : (outside.reportNotes notes scope).Ends first result last) :
    result = .ok () ∧ last.registry = first.registry := by
  unfold reportNotes at ends
  split at ends
  · obtain ⟨rfl, rfl⟩ := Synthesis.ends_reports ends
    exact ⟨rfl, rfl⟩
  · obtain ⟨rfl, rfl⟩ := (Synthesis.ends_pure_iff ()).mp ends
    exact ⟨rfl, rfl⟩

/-- An intersection that merges its members is what they merge into. -/
theorem ends_intersection_ok {nodes : List WalkedNode}
    (isOther : SchemaNode.onlyReference? (nodes.map Prod.fst) = none) {scope : Scope} {depth : Nat}
    {shape : Shape} (ends : (outside.intersection nodes scope depth).Ends first (.ok shape) last) :
    ∃ inputs middle merged,
      (outside.members scope depth nodes 0).Ends first (.ok inputs) middle ∧
        mergeAllOf inputs middle.registry.equivalent = .ok merged ∧ shape = merged.shape ∧
          last.registry = middle.registry := by
  rw [outside.intersection_of_members isOther, Synthesis.ends_bind_ok_iff] at ends
  obtain ⟨inputs, middle, members, ends⟩ := ends
  simp only [Synthesis.ends_bind_ok_iff, Synthesis.ends_get_iff, Except.ok.injEq,
    Synthesis.ends_liftComposition_ok_iff, Synthesis.ends_pure_iff] at ends
  obtain ⟨_, _, ⟨rfl, rfl⟩, merged, _, ⟨isMerged, rfl⟩, _, _, reports, rfl, rfl⟩ := ends
  exact ⟨inputs, _, merged, members, isMerged, rfl, (outside.ends_reportNotes reports).2⟩

/-- What tells the cases of a choice apart, with the names of types in place of schemas. -/
def discriminate (scope : Scope) (found : Discriminator) : Synthesis Discriminator := do
  let mapping ← outside.mapping (scope.below "/discriminator") found.mapping.entries {}
  return { found with mapping }

/-- A choice unites the names of its cases. -/
theorem union_eq (kind : CompositionKind) (members : List WalkedNode)
    (discriminator : Option Discriminator) (nullable : Bool) (scope : Scope) (depth : Nat) :
    outside.union kind members discriminator nullable scope depth = (do
      let found ← cases kind scope depth members 0
      let mapped ← discriminator.mapM (outside.discriminate scope)
      Synthesis.liftComposition scope.path
        (unionOf kind found.1 (nullable || found.2) mapped)) := rfl

/-- The shape of an intersection is no enumeration. -/
theorem isEnum_intersection {nodes : List WalkedNode} {scope : Scope} {depth : Nat} {shape : Shape}
    (ends : (outside.intersection nodes scope depth).Ends first (.ok shape) last) :
    shape.isEnum = false := by
  cases isOnly : SchemaNode.onlyReference? (nodes.map Prod.fst) with
  | some target =>
    rw [outside.intersection_of_reference isOnly] at ends
    split at ends
    · simp at ends
    · simp only [Synthesis.ends_bind_ok_iff, Synthesis.ends_pure_iff, Except.ok.injEq] at ends
      obtain ⟨_, _, _, rfl, _⟩ := ends
      rfl
  | none =>
    obtain ⟨_, _, _, _, isMerged, rfl, _⟩ := outside.ends_intersection_ok isOnly ends
    exact isEnum_mergeAllOf isMerged

/-- Only an enumeration is declared as one. -/
theorem isEnum_of_declare (node : SchemaNode) {scope : Scope} {depth : Nat} {shape : Shape}
    (ends : ((outside.walk node).declare scope depth).Ends first (.ok shape) last)
    (isEnum : shape.isEnum = true) : node.kind.isEnum = true := by
  obtain ⟨kind, traits⟩ := node
  -- A node that is used directly is declared as an alias.
  have plain : ∀ {walk : NodeWalk} {expression : Scope → Nat → Synthesis TypeExpr},
      (walk.declare scope depth).Ends first (.ok shape) last →
        walk.declare = (outside.plainWalk traits expression).declare → False := by
    intro walk expression ends isPlain
    rw [isPlain] at ends
    simp only [plainWalk, Synthesis.ends_bind_ok_iff, Synthesis.ends_pure_iff,
      Except.ok.injEq] at ends
    obtain ⟨_, _, _, _, _, _, rfl, _⟩ := ends
    cases isEnum
  -- Any other node is declared as the shape that it has.
  have declared : ∀ {walk : NodeWalk} {given : Scope → Nat → Synthesis Shape},
      (walk.declare scope depth).Ends first (.ok shape) last →
        walk.declare = (outside.declaredWalk traits given).declare →
          ∃ middle, (given scope depth).Ends middle (.ok shape) last := by
    intro walk given ends isDeclared
    rw [isDeclared] at ends
    obtain ⟨_, middle, _, ends⟩ := (Synthesis.ends_bind_ok_iff _ _ _).mp ends
    exact ⟨middle, ends⟩
  cases kind with
  | enum base values => rfl
  | primitive | array | map | reference | null => exact (plain ends rfl).elim
  | any =>
    rw [walk_any, anyWalk] at ends
    split at ends <;> exact (plain ends rfl).elim
  | object properties additional =>
    rw [walk_object, objectWalk] at ends
    split at ends
    · exact (plain ends rfl).elim
    · obtain ⟨_, ends⟩ := declared ends rfl
      simp only [Synthesis.ends_bind_ok_iff, Synthesis.ends_pure_iff, Except.ok.injEq] at ends
      obtain ⟨_, _, _, rfl, _⟩ := ends
      cases isEnum
  | composed kind members discriminator =>
    by_cases isChoice : kind = .allOf
    · subst isChoice
      rw [walk_allOf] at ends
      obtain ⟨_, ends⟩ := declared ends rfl
      obtain ⟨found, _, intersection, ends⟩ := (Synthesis.ends_bind_ok_iff _ _ _).mp ends
      have notEnum := outside.isEnum_intersection intersection
      split at ends
      · cases ((Synthesis.ends_pure_iff _).mp ends).1
        cases isEnum
      · cases ((Synthesis.ends_pure_iff _).mp ends).1
        simp [notEnum] at isEnum
    · rw [walk_choice _ _ isChoice] at ends
      obtain ⟨_, ends⟩ := declared ends rfl
      rw [union_eq] at ends
      obtain ⟨_, _, _, ends⟩ := (Synthesis.ends_bind_ok_iff _ _ _).mp ends
      obtain ⟨_, _, _, ends⟩ := (Synthesis.ends_bind_ok_iff _ _ _).mp ends
      have isUnion := ((Synthesis.ends_liftComposition_ok_iff _ _ _).mp ends).1
      simp [isEnum_unionOf isUnion] at isEnum

end Surroundings

end ApiTypes

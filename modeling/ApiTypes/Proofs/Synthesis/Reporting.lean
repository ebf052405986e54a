import ApiTypes.Proofs.Synthesis.Alarms
import ApiTypes.Proofs.Synthesis.Warnings

/-!
When a component schema is synthesized first. Unless a schema that is merged somewhere lies on a cycle
and leads to it, that is no part of an expansion, and so all warnings that it deserves are reported.
-/

namespace ApiTypes

open Relation

/-- Some members of a component schema in progress merge. -/
def Context.MergesMembers (context : Context) (schema : String) (members : List SchemaNode)
    (merged : Merged) : Prop :=
  ∃ active name first inputs last, Consistent context first ∧
    first.resolver.state schema = .resolving ∧
    ((Synthesis.within context false active []).members ⟨name, Pointer.ofSchema schema⟩ 0
      (members.map (Synthesis.within context false active []).walked) 0).Ends first (.ok inputs) last ∧
    mergeAllOf inputs last.registry.equivalent = .ok merged

/-- No schema that is merged somewhere lies on a cycle of references and leads to a component schema. -/
def Context.LiesApart (context : Context) (schema : String) : Prop :=
  ∀ target source, context.Merges target source → TransGen context.Refers source source →
    ¬TransGen context.Refers source schema

/-- A component schema gets its shape by a merge, which leaves notes, or in another way. -/
inductive Context.DeclaresWith (context : Context) (schema : String) :
    SchemaNode → Shape → List MergeNote → Prop
  | merged {members : List SchemaNode} {discriminator : Option Discriminator} {traits : NodeTraits}
    {merged : Merged} (several : SchemaNode.onlyReference? members = none)
    (merges : context.MergesMembers schema members merged) :
    DeclaresWith context schema ⟨.composed .allOf members discriminator, traits⟩
      (merged.shape.admitting traits.nullable) merged.notes
  | other {node : SchemaNode} {shape : Shape}
    (notMerged : ∀ members discriminator, node.kind = .composed .allOf members discriminator →
      SchemaNode.onlyReference? members ≠ none) :
    DeclaresWith context schema node shape []

namespace Synthesis

/-- A declaration reports what a node requires without a property, and then adds no other warning. -/
def DeclaresSilently (context : Context) (active : List String) (schema : String)
    (warnings : List Diagnostic) (traits : NodeTraits) (scope : Scope) (depth : Nat)
    (walk : NodeWalk) : Prop :=
  ∃ body : Synthesis Shape,
    walk.declare scope depth = (do
      (within context false active []).reportUndeclared traits scope
      body) ∧
    AddsNoWarning context active schema warnings body

variable {context : Context} {active : List String} {schema : String} {warnings : List Diagnostic}
  {traits : NodeTraits} {scope : Scope} {depth : Nat}

/-- A node whose type is an expression is declared by that. -/
theorem declaresSilently_plain {walk : NodeWalk} {expression : Scope → Nat → Synthesis TypeExpr}
    (isPlain : walk.declare = ((within context false active []).plainWalk traits expression).declare)
    (gives : AddsNoWarning context active schema warnings (expression scope depth)) :
    DeclaresSilently context active schema warnings traits scope depth walk :=
  have below := (keepsWarnings_within context active [] schema warnings).traversal false
  ⟨_, congrFun (congrFun isPlain scope) depth, below.map gives Shape.alias⟩

/-- A node whose type has a name is declared by its shape. -/
theorem declaresSilently_declared {walk : NodeWalk} {shape : Scope → Nat → Synthesis Shape}
    (isDeclared : walk.declare = ((within context false active []).declaredWalk traits shape).declare)
    (gives : AddsNoWarning context active schema warnings (shape scope depth)) :
    DeclaresSilently context active schema warnings traits scope depth walk :=
  ⟨_, congrFun (congrFun isDeclared scope) depth, gives⟩

/-- A reference adds no warning about a schema that has been started. -/
theorem silent_reference (target : String) (scope : Scope) :
    AddsNoWarning context active schema warnings
      ((within context false active []).reference target scope) :=
  Maintains.reference (adequate_within context false active []) scope (fun _ _ => trivial)
    (fun _ _ => trivial)
    fun first consistent started _ =>
    (keepsWarnings_within context active [] schema warnings).enter target first consistent started

/-- An object at the place of a schema declares what stands below it. -/
theorem declaresSilently_object (isPlace : scope.path = Pointer.ofSchema schema)
    (properties : List (Property SchemaNode)) (additional : Option SchemaNode) :
    DeclaresSilently context active schema warnings traits scope depth
      ((within context false active []).walk ⟨.object properties additional, traits⟩) := by
  have below := (keepsWarnings_within context active [] schema warnings).traversal false
  have inside := silent_inside isPlace
  have walks (part : SchemaNode) := below.walk part (fun _ _ => trivial) fun _ _ => trivial
  rw [Surroundings.walk_object, Surroundings.objectWalk]
  split
  · exact declaresSilently_plain rfl (.pure _)
  · exact declaresSilently_declared rfl
      (below.map (below.record inside (fun property _ => walks property.schema) fun value _ =>
        walks value) _)

/-- An intersection that stands for a reference declares that. -/
theorem declaresSilently_onlyReference {members : List SchemaNode} {target : String}
    (isOnly : SchemaNode.onlyReference? members = some target)
    (discriminator : Option Discriminator) :
    DeclaresSilently context active schema warnings traits scope depth
      ((within context false active []).walk ⟨.composed .allOf members discriminator, traits⟩) := by
  have below := (keepsWarnings_within context active [] schema warnings).traversal false
  have sameNodes := (within context false active []).map_fst_walked members
  rw [Surroundings.walk_allOf]
  refine declaresSilently_declared rfl (below.bind ?_ fun shape => by cases shape <;> exact .pure _)
  rw [Surroundings.intersection_of_reference _ (sameNodes.symm ▸ isOnly)]
  split
  · exact .fail fun _ _ => trivial
  · exact below.map (silent_reference target _) _

/-- A choice at the place of a schema declares the members below it. -/
theorem declaresSilently_choice (isPlace : scope.path = Pointer.ofSchema schema)
    {kind : CompositionKind} (isChoice : kind ≠ .allOf) (members : List SchemaNode)
    (discriminator : Option Discriminator) :
    DeclaresSilently context active schema warnings traits scope depth
      ((within context false active []).walk ⟨.composed kind members discriminator, traits⟩) := by
  have keeps := keepsWarnings_within context active [] schema warnings
  have below := keeps.traversal false
  have inside := silent_inside isPlace
  have walks := fun member (_ : member ∈ members) =>
    below.walk member (fun _ _ => trivial) fun _ _ => trivial
  rw [Surroundings.walk_choice _ _ isChoice]
  refine declaresSilently_declared rfl ?_
  rw [Surroundings.union_eq]
  refine below.bind (below.cases inside kind depth walks 0) fun found => ?_
  refine below.bind (below.discriminated inside fun _ _ _ _ => trivial) fun mapped => ?_
  -- What is found is composed at the place itself, where no report is made.
  exact (keeps.traversal true).liftComposition (.inl rfl) fun _ => isOwn_unionOf

/-- Unless a node merges its members, it is declared by something that adds no warning about it. -/
theorem declaresSilently_walk {node : SchemaNode}
    (notMerged : ∀ members discriminator, node.kind = .composed .allOf members discriminator →
      SchemaNode.onlyReference? members ≠ none)
    (isPlace : scope.path = Pointer.ofSchema schema) (depth : Nat) :
    DeclaresSilently context active schema warnings node.traits scope depth
      ((within context false active []).walk node) := by
  -- Parts of the node stand below its place, and what is said of them is not about the schema.
  have keeps := keepsWarnings_within context active [] schema warnings
  have below := keeps.traversal false
  have inside := silent_inside isPlace
  have walks (part : SchemaNode) := below.walk part (fun _ _ => trivial) fun _ _ => trivial
  obtain ⟨kind, traits⟩ := node
  cases kind with
  | primitive base format => exact declaresSilently_plain (by rw [Surroundings.walk_primitive]) (.pure _)
  | enum base values => exact declaresSilently_declared (by rw [Surroundings.walk_enum]) (.pure _)
  | null => exact declaresSilently_plain (by rw [Surroundings.walk_null]) (.pure _)
  | any =>
    rw [Surroundings.walk_any, Surroundings.anyWalk]
    split <;> exact declaresSilently_plain rfl (.pure _)
  | array items =>
    rw [Surroundings.walk_array]
    refine declaresSilently_plain rfl ?_
    refine below.bind ((keeps.traversal true).checkArray (.inl rfl) _ _) fun _ => below.map ?_ _
    exact (walks items).expression _ (inside.append _ "items" rfl)
  | map value =>
    rw [Surroundings.walk_map]
    exact declaresSilently_plain rfl
      (below.map (Traversal.mapValue inside (walks value) depth) _)
  | reference target =>
    rw [Surroundings.walk_reference]
    exact declaresSilently_plain rfl (below.map (silent_reference target scope) _)
  | object properties additional => exact declaresSilently_object isPlace properties additional
  | composed kind members discriminator =>
    by_cases isChoice : kind = .allOf
    · subst isChoice
      cases isOnly : SchemaNode.onlyReference? members with
      | none => exact absurd isOnly (notMerged members discriminator rfl)
      | some target => exact declaresSilently_onlyReference isOnly discriminator
    · exact declaresSilently_choice isPlace isChoice members discriminator

variable {first last : Workspace} {node : SchemaNode} {name : String} {shape : Shape}

/-- A schema in progress that merges its members reports the notes of the merge, after other warnings. -/
theorem warned_intersection {members : List SchemaNode}
    (several : SchemaNode.onlyReference? members = none)
    (isResolving : first.resolver.state schema = .resolving)
    (warned : first.HasWarned schema warnings) (consistent : Consistent context first)
    (started : Started active first)
    (intersects : ((within context false active []).intersection
      (members.map (within context false active []).walked) ⟨name, Pointer.ofSchema schema⟩ 0).Ends
        first (.ok shape) last) :
    ∃ merged, context.MergesMembers schema members merged ∧ shape = merged.shape ∧
      last.HasWarned schema (warnings ++ MergeNote.warnings merged.notes (Pointer.ofSchema schema)) := by
  have sameNodes := (within context false active []).map_fst_walked members
  rw [Surroundings.intersection_of_members _ (sameNodes.symm ▸ several), ends_bind_ok_iff] at intersects
  obtain ⟨inputs, middle, contributes, ends⟩ := intersects
  simp only [ends_bind_ok_iff, ends_get_iff, Except.ok.injEq, ends_liftComposition_ok_iff,
    ends_pure_iff] at ends
  obtain ⟨_, _, ⟨rfl, rfl⟩, merged, _, ⟨isMerged, rfl⟩, _, _, reports, rfl, rfl⟩ := ends
  have merges : context.MergesMembers schema members merged :=
    ⟨active, name, first, inputs, _, consistent, isResolving, contributes, isMerged⟩
  refine ⟨merged, merges, rfl, ?_⟩
  -- The members stand below the schema, and the notes at the schema itself.
  have below := (keepsWarnings_within context active [] schema warnings).traversal false
  have inside : Scope.Inside ⟨name, Pointer.ofSchema schema⟩ (IsSilent false schema) := silent_inside rfl
  have silent : AddsNoWarning context active schema warnings
      ((within context false active []).members ⟨name, Pointer.ofSchema schema⟩ 0
        (members.map (within context false active []).walked) 0) :=
    below.members inside 0 (fun _ _ _ _ => trivial) (fun _ _ _ _ => trivial)
      (fun member _ => below.walk member (fun _ _ => trivial) fun _ _ => trivial) 0
  have held := (silent _ _ _ consistent started trivial warned contributes).2.2.1
  rw [Surroundings.diagnostics_reportNotes reports]
  refine ⟨held.started, ?_⟩
  rw [warningsOf_append, held.warnings_eq]
  exact congrArg (warnings ++ ·) (warningsOf_notes merged.notes)

/-- The declaration of a component schema in progress reports all the warnings that it deserves. -/
theorem warned_declare (isResolving : first.resolver.state schema = .resolving)
    (unwarned : warningsOf schema first.diagnostics = [])
    (consistent : Consistent context first) (started : Started active first)
    (declares : (((within context false active []).walk node).declare
      ⟨name, Pointer.ofSchema schema⟩ 0).Ends first (.ok shape) last) :
    ∃ notes, context.DeclaresWith schema node shape notes ∧
      last.HasWarned schema (node.traits.warnings (Pointer.ofSchema schema) ++
        MergeNote.warnings notes (Pointer.ofSchema schema)) := by
  -- The first thing that is reported is what the node requires without a property.
  have reports {middle : Workspace} {traits : NodeTraits}
      (ends : ((within context false active []).reportUndeclared traits
        ⟨name, Pointer.ofSchema schema⟩).Ends first (.ok ()) middle) :
      Consistent context middle ∧ Started active middle ∧
        middle.resolver.state schema = .resolving ∧
        middle.HasWarned schema (traits.warnings (Pointer.ofSchema schema)) := by
    have ⟨after, grows⟩ := (Surroundings.ends_reportUndeclared ends).2.advances consistent
    rw [Surroundings.diagnostics_reportUndeclared ends] at after grows ⊢
    refine ⟨after, grows.started started, isResolving, by simp [isResolving], ?_⟩
    rw [warningsOf_append, unwarned, List.nil_append]
    exact warningsOf_traits traits
  by_cases isMerged : ∃ members discriminator, node.kind = .composed .allOf members discriminator ∧
      SchemaNode.onlyReference? members = none
  · obtain ⟨members, discriminator, isKind, several⟩ := isMerged
    obtain ⟨kind, traits⟩ := node
    cases isKind
    rw [Surroundings.walk_allOf] at declares
    obtain ⟨_, begun, undeclared, ends⟩ := (ends_bind_ok_iff _ _ _).mp declares
    obtain ⟨between, isBegun, stillResolving, warned⟩ := reports undeclared
    obtain ⟨found, after, intersects, ends⟩ := (ends_bind_ok_iff _ _ _).mp ends
    obtain ⟨merged, merges, rfl, held⟩ :=
      warned_intersection several stillResolving warned between isBegun intersects
    have isShape : shape = merged.shape.admitting traits.nullable ∧ last = after := by
      generalize merged.shape = found at ends
      cases found <;> simpa [Shape.admitting] using ends
    obtain ⟨rfl, rfl⟩ := isShape
    exact ⟨merged.notes, .merged several merges, held⟩
  · have notMerged : ∀ members discriminator, node.kind = .composed .allOf members discriminator →
        SchemaNode.onlyReference? members ≠ none := fun members discriminator isKind several =>
      isMerged ⟨members, discriminator, isKind, several⟩
    obtain ⟨body, isBody, silent⟩ : DeclaresSilently context active schema
        (node.traits.warnings (Pointer.ofSchema schema)) node.traits ⟨name, Pointer.ofSchema schema⟩ 0
        ((within context false active []).walk node) :=
      declaresSilently_walk notMerged rfl 0
    rw [isBody] at declares
    obtain ⟨_, middle, undeclared, ends⟩ := (ends_bind_ok_iff _ _ _).mp declares
    obtain ⟨between, isBegun, _, warned⟩ := reports undeclared
    have held := (silent _ _ _ between isBegun trivial warned ends).2.2.1
    exact ⟨[], .other notMerged, by simpa [MergeNote.warnings] using held⟩

end Synthesis

/-- The declaration of a component schema stands, and all the warnings that it deserves are reported. -/
def Workspace.HasReported (context : Context) (schema : String) (node : SchemaNode)
    (workspace : Workspace) : Prop :=
  ∃ declaration notes, workspace.registry.get? declaration.name = some declaration ∧
    declaration.origin = .component schema ∧
    context.DeclaresWith schema node declaration.shape notes ∧
    warningsOf schema workspace.diagnostics =
      node.traits.warnings (Pointer.ofSchema schema) ++
        MergeNote.warnings notes (Pointer.ofSchema schema)

/--
A component schema has not been started and has no warnings, or it is registered with all of them, or it
has not ended as it should; and the schemas in progress and in expansion are known.
-/
structure Workspace.Awaits (context : Context) (schema : String) (node : SchemaNode)
    (active expanding : List String) (workspace : Workspace) : Prop
    extends workspace.Underway context active expanding where
  unwarned : workspace.resolver.state schema = .pending → warningsOf schema workspace.diagnostics = []
  reported : workspace.resolver.state schema = .registered → workspace.HasReported context schema node

variable {context : Context} {active expanding : List String} {schema : String} {node : SchemaNode}
  {first last : Workspace}

/-- A shape that gets a name changes the registry alone. -/
theorem Workspace.Registers.eq {shape : Shape} {name : String}
    (registers : first.Registers shape name last) : last = { first with registry := last.registry } := by
  obtain ⟨_, _, _, _, _, isLast⟩ := registers
  exact isLast

/-- A shape that gets a name leaves what was declared before. -/
theorem Workspace.Registers.get?_eq {shape : Shape} {name other : String} {declaration : Declaration}
    (registers : first.Registers shape name last)
    (stands : first.registry.get? other = some declaration) :
    last.registry.get? other = some declaration := by
  obtain ⟨candidate, doc, deprecated, path, isRegistered, _⟩ := registers
  rcases first.registry.register_cases candidate shape doc deprecated (.inline path) with
    ⟨_, _, _, _, isSame⟩ | ⟨found, free, isNew⟩
  · rw [← (Prod.mk.inj (isSame.symm.trans isRegistered)).2]
    exact stands
  · rw [← (Prod.mk.inj (isNew.symm.trans isRegistered)).2, Registry.get?_declare, if_neg, stands]
    rintro rfl
    simp [Registry.get?_eq_none_of_slot free] at stands

/-- The conclusion of a schema in progress leaves what was declared before. -/
theorem Consistent.get?_conclude (consistent : Consistent context first) {name emitted other : String}
    (isEmitted : context.emitted? name = some emitted)
    (isResolving : first.resolver.state name = .resolving) (node : SchemaNode)
    (result : Except LocatedFailure Shape) {declaration : Declaration}
    (stands : first.registry.get? other = some declaration) :
    (first.conclude name emitted node result).registry.get? other = some declaration := by
  cases result with
  | error located => exact stands
  | ok shape =>
    rw [Workspace.conclude, Registry.fill, Registry.get?_declare, if_neg, stands]
    rintro rfl
    simp [consistent.undeclared_of_resolving isEmitted isResolving] at stands

/-- What has been reported stays so while neither declarations nor warnings are lost. -/
theorem Workspace.HasReported.mono (reported : first.HasReported context schema node)
    (kept : ∀ name declaration, first.registry.get? name = some declaration →
      last.registry.get? name = some declaration)
    (same : warningsOf schema last.diagnostics = warningsOf schema first.diagnostics) :
    last.HasReported context schema node := by
  obtain ⟨declaration, notes, stands, origin, declares, warnings_eq⟩ := reported
  exact ⟨declaration, notes, kept _ _ stands, origin, declares, same.trans warnings_eq⟩

namespace Workspace.Awaits

/-- Nothing is missed while no schema begins or ends and there are no warnings about the schema. -/
theorem steady (awaits : first.Awaits context schema node active expanding)
    (sameStates : last.resolver = first.resolver)
    (kept : ∀ name declaration, first.registry.get? name = some declaration →
      last.registry.get? name = some declaration)
    (same : warningsOf schema last.diagnostics = warningsOf schema first.diagnostics) :
    last.Awaits context schema node active expanding where
  -- Only states and declarations matter, and warnings about the one schema.
  toUnderway := awaits.toUnderway.steady sameStates
  unwarned isPending := same.trans (awaits.unwarned (sameStates ▸ isPending))
  reported isRegistered := (awaits.reported (sameStates ▸ isRegistered)).mono kept same

/-- Another schema may begin. -/
theorem begin (awaits : first.Awaits context schema node active expanding) {name : String}
    (isOther : schema ≠ name) :
    (first.begin name).Awaits context schema node (name :: active) expanding where
  toUnderway := awaits.toUnderway.begin name
  unwarned isPending := by
    rw [state_begin, if_neg isOther] at isPending
    exact awaits.unwarned isPending
  reported isRegistered := by
    rw [state_begin, if_neg isOther] at isRegistered
    exact awaits.reported isRegistered

/-- Another schema may be concluded, which says nothing of the one that is awaited. -/
theorem conclude {name emitted : String} (isOther : schema ≠ name)
    (awaits : first.Awaits context schema node (name :: active) expanding)
    (consistent : Consistent context first) (isEmitted : context.emitted? name = some emitted)
    (isResolving : first.resolver.state name = .resolving) {ended : SchemaNode}
    {result : Except LocatedFailure Shape}
    (underway : (first.conclude name emitted ended result).Underway context active expanding) :
    (first.conclude name emitted ended result).Awaits context schema node active expanding where
  toUnderway := underway
  unwarned isPending := by
    rw [state_conclude, if_neg isOther] at isPending
    exact (warningsOf_conclude _ _ _ _ _ _).trans (awaits.unwarned isPending)
  reported isRegistered := by
    rw [state_conclude, if_neg isOther] at isRegistered
    exact (awaits.reported isRegistered).mono
      (fun _ _ => consistent.get?_conclude isEmitted isResolving ended result)
      (warningsOf_conclude _ _ _ _ _ _)

/-- Nothing to which a schema in expansion refers is yet to be started and leads to the schema. -/
theorem quiet {source other target : String}
    (awaits : first.Awaits context schema node active (other :: expanding))
    (apart : context.LiesApart schema) (isSource : ∃ whole, context.Merges whole source)
    (leads : ReflTransGen context.Refers source other)
    (before : ∀ upper ∈ active, TransGen context.Refers upper source)
    (refers : context.Refers other target) (pending : first.resolver.state target = .pending) :
    ¬ReflTransGen context.Refers target schema := by
  intro leadsOn
  -- What is in progress leads to the source of the expansion, which lies on a cycle then.
  have back := before other (awaits.mem_active List.mem_cons_self refers pending)
  obtain ⟨whole, isMerged⟩ := isSource
  refine apart whole source isMerged (back.trans_right leads) ?_
  exact (back.trans_right leads).trans_left (leads.trans (.head refers leadsOn))

end Workspace.Awaits

namespace Synthesis

/-- Nothing that is asked for misses a warning about a component schema, unless a cycle is merged. -/
structure Attends (context : Context) (schema : String) (node : SchemaNode)
    (active expanding : List String) : Prop where
  enter : ∀ target first, (∀ other ∈ active, TransGen context.Refers other target) →
    (expanding ≠ [] → first.resolver.state target = .pending →
      ¬ReflTransGen context.Refers target schema) →
    Consistent context first → Started active first →
    first.Awaits context schema node active expanding →
      ((enterWithin context active expanding target).run first).2.Awaits context schema node active
        expanding
  expand : ∀ other path source, (∃ target, context.Merges target source) →
    ReflTransGen context.Refers source other →
    (∀ other ∈ active, TransGen context.Refers other source) →
    MaintainsGiven context active (fun workspace => workspace.Ready other)
      (Workspace.Awaits context schema node active expanding) (fun _ _ => True)
      (expandWithin context active expanding other path)

/-- Walks miss no warning if that holds of what they refer to and of what they merge. -/
theorem Attends.traversal (attends : Attends context schema node active expanding) (muted : Bool)
    {uses merges : String → Prop}
    (lines : ∀ target, uses target → ∀ other ∈ active, TransGen context.Refers other target)
    (quiet : expanding ≠ [] → ∀ target, uses target → ∀ workspace : Workspace,
      workspace.Awaits context schema node active expanding →
        workspace.resolver.state target = .pending → ¬ReflTransGen context.Refers target schema)
    (anchored : ∀ target, uses target → merges target → ∃ source,
      (∃ other, context.Merges other source) ∧ ReflTransGen context.Refers source target ∧
        ∀ other ∈ active, TransGen context.Refers other source) :
    Traversal (within context muted active expanding) (IsSilent muted schema) uses merges
      (Maintains context active (Workspace.Awaits context schema node active expanding)
        fun _ _ => True) := by
  have adequate := adequate_within context muted active expanding
  refine Maintains.traversal adequate
    (fun _ isPlace => isPlace.imp_right fun notAt isAt => notAt isAt.above) (fun _ _ _ => trivial)
    (fun registers awaits => ?_) (fun isPlace ends awaits => ?_) (fun isPlace ends awaits => ?_)
    (fun isUsed _ => ?_) (fun isUsed isMerged chain _ => ?_) fun isAtomic _ => ?_
  -- Names and reports leave the states of all schemas.
  · exact awaits.steady (by rw [registers.eq]) (fun _ _ => registers.get?_eq)
      (by rw [registers.eq])
  · have notes := (Surroundings.ends_reportUndeclared ends).2
    exact awaits.steady notes.resolver_eq (fun _ _ stands => notes.registry_eq ▸ stands)
      (Surroundings.warningsOf_reportUndeclared isPlace ends)
  · have notes := (Surroundings.notes_of_reportNotes ends).2
    exact awaits.steady notes.resolver_eq (fun _ _ stands => notes.registry_eq ▸ stands)
      (Surroundings.warningsOf_reportNotes isPlace ends)
  -- References enter schemas, and members of intersections expand them.
  · refine Maintains.reference adequate _ (fun _ _ => trivial) (fun _ _ => trivial)
      fun first consistent started isPending awaits => ?_
    exact attends.enter _ first (lines _ isUsed)
      (fun inExpansion => quiet inExpansion _ isUsed first awaits) consistent started awaits
  · obtain ⟨source, isSource, leads, before⟩ := anchored _ isUsed isMerged
    refine attends.expand _ _ source isSource (leads.trans ?_) before
    exact chain.lift id fun _ _ => Context.Includes.refers
  · intro first last result consistent started _ awaits ends
    obtain ⟨rfl, _⟩ := expandWithin_of_isAtomic isAtomic consistent started ends
    exact ⟨consistent, .refl _, awaits, fun _ _ => trivial⟩

/-- A component schema that is synthesized outside of expansions is registered with all its warnings. -/
theorem hasReported_conclude {inner : Workspace} {result : Except LocatedFailure Shape}
    (consistent : Consistent context first) (found : context.model.node? schema = some node)
    (pending : first.resolver.state schema = .pending) (started : Started active first)
    (unwarned : warningsOf schema first.diagnostics = [])
    (ends : (shapeWithin (within context false (schema :: active) []) node
      (first.scopeOf schema)).Ends (first.begin schema) result inner)
    (isRegistered : (inner.conclude schema (first.scopeOf schema).name node result).resolver.state
      schema = .registered) :
    (inner.conclude schema (first.scopeOf schema).name node result).HasReported context schema
      node := by
  rw [Workspace.state_conclude, if_pos rfl] at isRegistered
  -- Since the schema ends up registered, it has not failed.
  cases result with
  | error located => cases isRegistered
  | ok shape =>
    have declares := ((ends_shapeWithin_ok_iff _ _ _ _).mp ends).1
    have isResolving : (first.begin schema).resolver.state schema = .resolving := by
      rw [Workspace.state_begin, if_pos rfl]
    obtain ⟨notes, declaresWith, warned⟩ := warned_declare isResolving unwarned
      (consistent.begin found pending) (started_begin started) declares
    let declaration : Declaration :=
      { name := (first.scopeOf schema).name, shape, doc := node.traits.description
        deprecated := node.traits.deprecated, origin := .component schema }
    have stands := inner.registry.get?_declare declaration declaration.name
    rw [if_pos rfl] at stands
    exact ⟨declaration, notes, stands, rfl, declaresWith, warned.warnings_eq⟩

/-- What is entered misses no warning if nothing does while it is in progress. -/
theorem awaits_enterWithin (found : context.model.node? schema = some node) {target : String}
    (inside : ∀ entered, context.model.node? target = some entered → target ∉ active →
      Attends context schema node (target :: active) expanding)
    (lines : ∀ other ∈ active, TransGen context.Refers other target)
    (quiet : expanding ≠ [] → first.resolver.state target = .pending →
      ¬ReflTransGen context.Refers target schema)
    (consistent : Consistent context first) (started : Started active first)
    (awaits : first.Awaits context schema node active expanding) :
    ((enterWithin context active expanding target).run first).2.Awaits context schema node active
      expanding := by
  have runs : Runs context first ((enterWithin context active expanding target).run first).2 :=
    (sound_within context false active expanding).enter consistent started
  have underway := awaits.toUnderway.runs runs consistent
  rcases enterWithin_cases context active expanding target first with
    ⟨same, _⟩ | ⟨entered, result, inner, isNode, fresh, pending, ends, isLast⟩
  · rw [same]
    exact awaits
  rw [isLast] at underway ⊢
  by_cases isSame : target = schema
  · -- The schema itself is not entered in an expansion, so nothing is muted.
    subst isSame
    cases found.symm.trans isNode
    have outermost : expanding = [] := by
      by_contra inExpansion
      exact quiet inExpansion pending .refl
    subst outermost
    refine ⟨underway, fun isPending => ?_, ?_⟩
    · rw [Workspace.state_conclude, if_pos rfl] at isPending
      cases result <;> cases isPending
    · exact hasReported_conclude consistent found pending started (awaits.unwarned pending) ends
  · -- Another schema is walked at its own place, with its references one line further down.
    have isOther : schema ≠ target := fun same => isSame same.symm
    have begun := consistent.begin isNode pending
    have refers {other : String} (inNode : entered.Refers other) : context.Refers target other :=
      ⟨entered, isNode, inNode⟩
    have above {other : String} (inNode : entered.Refers other) :
        ∀ upper ∈ target :: active, TransGen context.Refers upper other := by
      refine List.forall_mem_cons.mpr ⟨.single (refers inNode), fun upper isActive => ?_⟩
      exact (lines upper isActive).tail (refers inNode)
    have traversal : Traversal (within context (!expanding.isEmpty) (target :: active) expanding)
        (IsSilent (!expanding.isEmpty) schema) entered.Refers entered.Merges
        (Maintains context (target :: active)
          (Workspace.Awaits context schema node (target :: active) expanding) fun _ _ => True) :=
      (inside entered isNode fresh).traversal _ (fun _ => above)
        (fun inExpansion _ inNode _ _ _ leads =>
          quiet inExpansion pending (.head (refers inNode) leads))
        fun _ inNode isMerged => ⟨_, ⟨target, entered, isNode, isMerged⟩, .refl, above inNode⟩
    have declares := (traversal.walk entered (fun _ => id) fun _ => id).declare 0
      (.inr (Pointer.not_isAt_ofSchema isSame) : IsSilent _ schema (first.scopeOf target).path)
    have ⟨after, further, held, _⟩ := Maintains.shapeWithin (fun _ _ _ => trivial) declares _ _ _ begun
      (started_begin started) trivial (awaits.begin isOther) ends
    exact held.conclude isOther after (consistent.emitted?_eq_scopeOf isNode) further.resolving
      underway

/-- What is expanded misses no warning if nothing does in the expansion. -/
theorem awaits_expandWithin (apart : context.LiesApart schema) {other path source : String}
    (inside : ∀ taken, context.model.node? other = some taken → other ∉ expanding →
      Attends context schema node active (other :: expanding))
    (isSource : ∃ target, context.Merges target source)
    (leads : ReflTransGen context.Refers source other)
    (before : ∀ upper ∈ active, TransGen context.Refers upper source) :
    MaintainsGiven context active (fun workspace => workspace.Ready other)
      (Workspace.Awaits context schema node active expanding) (fun _ _ => True)
      (expandWithin context active expanding other path) := by
  -- Inside an expansion nothing is reported, and the schemas that are entered are such as the merged
  -- one leads to.
  intro first last result consistent started isReady awaits ends
  have unchanged : Consistent context first ∧ Grows first first ∧
      first.Awaits context schema node active expanding ∧ ∀ located, result = .error located → True :=
    ⟨consistent, .refl _, awaits, fun _ _ => trivial⟩
  rcases expandWithin_cases ends with ⟨_, _, rfl⟩ | ⟨_, _, rfl⟩ |
    ⟨taken, isNode, fresh, ⟨_, _, rfl⟩ | ⟨_, expands⟩⟩
  · exact unchanged
  · exact unchanged
  · exact unchanged
  · have refers {target : String} (inNode : taken.Refers target) : context.Refers other target :=
      ⟨taken, isNode, inNode⟩
    have traversal : Traversal (within context true active (other :: expanding))
        (IsSilent true schema) taken.Refers
        (fun target => taken.Merges target ∨ taken.Includes target)
        (Maintains context active
          (Workspace.Awaits context schema node active (other :: expanding)) fun _ _ => True) :=
      (inside taken isNode fresh).traversal true
        (fun _ inNode upper isActive => ((before upper isActive).trans_left leads).tail (refers inNode))
        (fun _ _ inNode _ awaits => awaits.quiet apart isSource leads before (refers inNode))
        fun _ inNode _ => ⟨source, isSource, leads.tail (refers inNode), before⟩
    have deeper : first.Awaits context schema node active (other :: expanding) :=
      { awaits with toUnderway := awaits.toUnderway.expand isReady }
    have ⟨after, grows, held, _⟩ := traversal.expand taken (fun _ => id) (fun _ => .inl)
      (fun _ => .inr) (.inl rfl) _ _ _ consistent started trivial deeper expands
    exact ⟨after, grows, { held with toUnderway := held.toUnderway.leave }, fun _ _ => trivial⟩

/--
If no schema that is merged somewhere lies on a cycle and leads to a component schema, then that is
never synthesized in an expansion, and no warning about it is missed.
-/
theorem attends_within (found : context.model.node? schema = some node)
    (apart : context.LiesApart schema) (active expanding : List String) :
    Attends context schema node active expanding := by
  induction active, expanding using withinInduction context.model with
  | step active expanding inside expansion =>
    exact ⟨fun target first => awaits_enterWithin found (inside target),
      fun other path source => awaits_expandWithin apart (expansion other)⟩

end Synthesis

end ApiTypes

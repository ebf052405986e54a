import ApiTypes.Proofs.Contributions
import ApiTypes.Proofs.Synthesis.Inclusion

/-!
Outlines of nodes. Which fields a node contributes to an intersection, and which it requires there,
depends on the nodes alone, and not on the workspace in which it is walked.
-/

namespace ApiTypes

/-- How a node comes to be a member of an intersection. -/
inductive Placement where
  /-- It is written there. -/
  | written
  /-- It is the node of a component schema to which a reference leads. -/
  | referred
deriving DecidableEq

/-- What a node requires beside its contribution where it is written. -/
def SchemaNode.requiredOutlines (node : SchemaNode) : List Outline :=
  match node.kind with
  | .object .. => if node.traits.required.isEmpty then [] else [.required node.traits.required]
  | _ => []

/-- The outline of what a node contributes to an intersection. -/
inductive SchemaNode.Outlines (context : Context) : Placement → SchemaNode → Outline → Prop
  /-- Where a name stands for the schema, that is the name of a type. -/
  | atomic {node : SchemaNode} (isAtomic : node.isAtomic = true) :
    Outlines context .referred node (.scalar false)
  | type {node : SchemaNode} (isType : node.contributesType = true) :
    Outlines context .written node (.scalar node.kind.isAny)
  | map {value : SchemaNode} {traits : NodeTraits} :
    Outlines context .written ⟨.map value, traits⟩ (.record [] true)
  | restriction {placement : Placement} {traits : NodeTraits}
    (isEmpty : traits.constraints.isEmpty = true) :
    Outlines context placement ⟨.any, traits⟩ (restriction traits).outline
  | object {placement : Placement} {properties : List (Property SchemaNode)}
    {additional : Option SchemaNode} {traits : NodeTraits} :
    Outlines context placement ⟨.object properties additional, traits⟩
      (.record (properties.map fun property => (property.name, property.required))
        additional.isSome)
  | choice {kind : CompositionKind} {members : List SchemaNode}
    {discriminator : Option Discriminator} {traits : NodeTraits} (isChoice : kind ≠ .allOf) :
    Outlines context .written ⟨.composed kind members discriminator, traits⟩ .union
  | referenceChoice {placement : Placement} {target : String} {traits : NodeTraits}
    {node : SchemaNode} (found : context.model.node? target = some node)
    (isChoice : context.model.isUnion node = true) :
    Outlines context placement ⟨.reference target, traits⟩ .union
  | reference {placement : Placement} {target : String} {traits : NodeTraits} {node : SchemaNode}
    {outline : Outline} (found : context.model.node? target = some node)
    (notChoice : context.model.isUnion node = false)
    (inside : Outlines context .referred node outline) :
    Outlines context placement ⟨.reference target, traits⟩ outline
  /-- An intersection that stands for a reference is expanded as that. -/
  | only {placement : Placement} {members : List SchemaNode} {discriminator : Option Discriminator}
    {traits : NodeTraits} {target : String} {node : SchemaNode} {outline : Outline}
    (isOnly : onlyReference? members = some target)
    (found : context.model.node? target = some node) (direct : node.inheritsNull = false)
    (inside : Outlines context .referred (.reference target) outline) :
    Outlines context placement ⟨.composed .allOf members discriminator, traits⟩ outline
  /-- Unless the use of the reference admits null: then it is the name of a type. -/
  | onlyNullable {placement : Placement} {members : List SchemaNode}
    {discriminator : Option Discriminator} {traits : NodeTraits} {target : String}
    {node : SchemaNode} (isOnly : onlyReference? members = some target)
    (found : context.model.node? target = some node) (nullable : node.inheritsNull = true) :
    Outlines context placement ⟨.composed .allOf members discriminator, traits⟩ (.scalar false)
  | members {placement : Placement} {members : List SchemaNode}
    {discriminator : Option Discriminator} {traits : NodeTraits} {merged : Outline}
    (several : onlyReference? members = none) (outline : SchemaNode → Outline)
    (inside : ∀ member ∈ members, Outlines context .written member (outline member))
    (merges : Outline.merge (members.flatMap fun member =>
      outline member :: member.requiredOutlines) = some merged) :
    Outlines context placement ⟨.composed .allOf members discriminator, traits⟩ merged

/-- The only member of an intersection that says something is the reference for which that stands. -/
theorem SchemaNode.significant_of_onlyReference? {nodes : List SchemaNode} {target : String}
    (isOnly : onlyReference? nodes = some target) :
    ∃ traits, significant nodes = [⟨.reference target, traits⟩] := by
  unfold onlyReference? at isOnly
  split at isOnly
  · rename_i only isSignificant
    obtain ⟨kind, traits⟩ := only
    cases kind <;> cases isOnly
    exact ⟨traits, isSignificant⟩
  · cases isOnly

/-- The outline of an intersection of nodes. -/
def Context.OutlinesMembers (context : Context) (members : List SchemaNode) (outline : Outline) :
    Prop :=
  ∀ placement discriminator traits,
    (⟨.composed .allOf members discriminator, traits⟩ : SchemaNode).Outlines context placement outline

/-- The outline of a component schema. -/
def Context.OutlinesSchema (context : Context) (schema : String) (outline : Outline) : Prop :=
  ∀ placement traits,
    (⟨.reference schema, traits⟩ : SchemaNode).Outlines context placement outline

namespace SchemaNode.Outlines

variable {context : Context} {placement : Placement} {node : SchemaNode} {outline other : Outline}

/-- An intersection has the same outline wherever it is and whatever is said beside it. -/
theorem outlinesMembers {members : List SchemaNode} {discriminator : Option Discriminator}
    {traits : NodeTraits}
    (outlines : Outlines context placement ⟨.composed .allOf members discriminator, traits⟩ outline) :
    context.OutlinesMembers members outline := by
  intro placement discriminator traits
  cases outlines with
  | atomic isAtomic => cases isAtomic
  | type isType => cases isType
  | choice isChoice => exact absurd rfl isChoice
  | only isOnly found direct inside => exact .only isOnly found direct inside
  | onlyNullable isOnly found nullable => exact .onlyNullable isOnly found nullable
  | members several outline inside merges => exact .members several outline inside merges

/-- So has a reference. -/
theorem outlinesSchema {target : String} {traits : NodeTraits}
    (outlines : Outlines context placement ⟨.reference target, traits⟩ outline) :
    context.OutlinesSchema target outline := by
  intro placement traits
  cases outlines with
  | atomic isAtomic => cases isAtomic
  | type isType => cases isType
  | referenceChoice found isChoice => exact .referenceChoice found isChoice
  | reference found notChoice inside => exact .reference found notChoice inside

/-- A node has one outline only. -/
theorem unique (outlines : Outlines context placement node outline)
    (also : Outlines context placement node other) : outline = other := by
  -- The rules exclude each other by the kind of the node, and then by what the reference leads to.
  induction outlines generalizing other with
  | atomic isAtomic =>
    cases also with
    | atomic => rfl
    | restriction isEmpty => simp [SchemaNode.isAtomic, isEmpty] at isAtomic
    | _ => cases isAtomic
  | type isType =>
    cases also with
    | type => rfl
    | restriction isEmpty => simp [contributesType, isEmpty] at isType
    | _ => cases isType
  | map =>
    cases also with
    | type isType => cases isType
    | map => rfl
  | restriction isEmpty =>
    cases also with
    | atomic isAtomic => simp [SchemaNode.isAtomic, isEmpty] at isAtomic
    | type isType => simp [contributesType, isEmpty] at isType
    | restriction => rfl
  | object =>
    cases also with
    | atomic isAtomic => cases isAtomic
    | type isType => cases isType
    | object => rfl
  | choice isChoice =>
    cases also with
    | type isType => cases isType
    | choice => rfl
    | only | onlyNullable | members => exact absurd rfl isChoice
  | referenceChoice found isChoice =>
    cases also with
    | atomic isAtomic => cases isAtomic
    | type isType => cases isType
    | referenceChoice => rfl
    | reference isFound notChoice =>
      cases found.symm.trans isFound
      cases isChoice.symm.trans notChoice
  | reference found notChoice inside ih =>
    cases also with
    | atomic isAtomic => cases isAtomic
    | type isType => cases isType
    | referenceChoice isFound isChoice =>
      cases found.symm.trans isFound
      cases isChoice.symm.trans notChoice
    | reference isFound _ also =>
      cases found.symm.trans isFound
      exact ih also
  | only isOnly found direct inside ih =>
    cases also with
    | atomic isAtomic => cases isAtomic
    | type isType => cases isType
    | choice isChoice => exact absurd rfl isChoice
    | only isAlso _ _ also =>
      cases isOnly.symm.trans isAlso
      exact ih also
    | onlyNullable isAlso isFound nullable =>
      cases isOnly.symm.trans isAlso
      cases found.symm.trans isFound
      cases direct.symm.trans nullable
    | members several => cases isOnly.symm.trans several
  | onlyNullable isOnly found nullable =>
    cases also with
    | atomic isAtomic => cases isAtomic
    | type isType => cases isType
    | choice isChoice => exact absurd rfl isChoice
    | only isAlso isFound direct =>
      cases isOnly.symm.trans isAlso
      cases found.symm.trans isFound
      cases direct.symm.trans nullable
    | onlyNullable => rfl
    | members several => cases isOnly.symm.trans several
  | @members _ members _ _ _ several outline inside merges ih =>
    cases also with
    | atomic isAtomic => cases isAtomic
    | type isType => cases isType
    | choice isChoice => exact absurd rfl isChoice
    | only isOnly | onlyNullable isOnly => cases several.symm.trans isOnly
    | members _ other also otherMerges =>
      have same : (members.flatMap fun member => outline member :: member.requiredOutlines) =
          members.flatMap fun member => other member :: member.requiredOutlines :=
        List.flatMap_congr fun member isMember => by rw [ih member isMember (also member isMember)]
      exact Option.some.inj (merges.symm.trans (same ▸ otherMerges))

/-- What is expanded by reference is no type that says nothing. -/
theorem ne_any (outlines : Outlines context .referred node outline) : outline ≠ .scalar true := by
  generalize isReferred : Placement.referred = placement at outlines
  induction outlines with
  | atomic | map | object | choice | referenceChoice | onlyNullable => nofun
  | type => cases isReferred
  | restriction =>
    unfold SchemaNode.restriction
    split <;> nofun
  | reference _ _ _ ih => exact ih rfl
  | only _ _ _ _ ih => exact ih rfl
  | members _ _ _ merges =>
    rintro rfl
    exact Outline.merge_ne_any _ merges

end SchemaNode.Outlines

/-- A member without a meaning has an outline that says nothing. -/
theorem SchemaNode.outlines_of_isUnconstrained {context : Context} {placement : Placement}
    {node : SchemaNode} (isUnconstrained : node.isUnconstrained = true) :
    node.Outlines context placement .unconstrained := by
  obtain ⟨kind, traits⟩ := node
  simp only [SchemaNode.isUnconstrained, Bool.and_eq_true] at isUnconstrained
  obtain ⟨⟨isAny, isEmpty⟩, isSilent⟩ := isUnconstrained
  cases kind <;> cases isAny
  have saysNothing : (restriction traits).outline = .unconstrained := by
    simp [restriction, isSilent, MemberShape.outline]
  exact saysNothing ▸ .restriction isEmpty

/-- A choice has the outline of one. -/
theorem SchemaNode.Outlines.eq_union {context : Context} {node : SchemaNode} {outline : Outline}
    (outlines : node.Outlines context .written outline) {kind : CompositionKind}
    {members : List SchemaNode} {discriminator : Option Discriminator}
    (isKind : node.kind = .composed kind members discriminator) (isChoice : kind ≠ .allOf) :
    outline = .union := by
  obtain ⟨_, traits⟩ := node
  cases isKind
  exact outlines.unique (.choice isChoice)

open Classical in
/-- The outline of what a node contributes where it is written, if it has one. -/
noncomputable def Context.outlineOf (context : Context) (node : SchemaNode) : Outline :=
  if known : ∃ outline, node.Outlines context .written outline then known.choose else .unconstrained

/-- The outline of a node is the only one that it has. -/
theorem SchemaNode.Outlines.outlineOf_eq {context : Context} {node : SchemaNode} {outline : Outline}
    (outlines : node.Outlines context .written outline) : context.outlineOf node = outline := by
  have known : ∃ outline, node.Outlines context .written outline := ⟨outline, outlines⟩
  rw [Context.outlineOf, dif_pos known]
  exact known.choose_spec.unique outlines

/-- What a node contributes to an intersection, and what it requires beside that. -/
noncomputable def Context.entriesOf (context : Context) (node : SchemaNode) :
    List (Outline × Option String) :=
  (context.outlineOf node, node.kind.referenceTarget?.bind context.emitted?) ::
    node.requiredOutlines.map fun outline => (outline, none)

/-- The outlines among what nodes contribute. -/
theorem Context.map_fst_entriesOf (context : Context) (nodes : List SchemaNode) :
    (nodes.flatMap context.entriesOf).map Prod.fst =
      nodes.flatMap fun node => context.outlineOf node :: node.requiredOutlines := by
  simp [List.map_flatMap, entriesOf, Function.comp_def]

/-- An intersection does not go on from a contributed type to any component schema but an atomic one. -/
def MemberShape.EndsAt (context : Context) : MemberShape → Prop
  | scalar type => type.nullable = false → ∀ schema, context.schemaOf? type = some schema →
    context.IsAtomic schema
  | record _ | required _ | unconstrained | union => True

/-- The outline of what a shape contributes to an intersection is that of some members. -/
def Context.OutlinesShape (context : Context) (members : List SchemaNode) : Shape → Prop
  | .record shape => context.OutlinesMembers members shape.outline
  | .alias type =>
    (∀ schema outline, context.schemaOf? type = some schema → type.nullable = false →
      context.OutlinesSchema schema outline → context.OutlinesMembers members outline) ∧
    ((type.nullable = false → context.schemaOf? type = none) →
      context.OutlinesMembers members (Shape.alias type).taken.outline)
  | .enum _ _ | .union _ => False

/-- What comes of a task has the outline of the nodes in question. -/
def Outlined (context : Context) : Task → Value → Prop
  | .contribute node _, .member shape =>
    node.Outlines context .written shape.outline ∧ shape.EndsAt context
  | .expand node name, .member shape => node.Outlines context .referred shape.outline ∧
    (shape = .scalar (.named name) ∧ node.isAtomic = true ∨ shape.EndsAt context)
  | .schema schema, .member shape =>
    context.OutlinesSchema schema shape.outline ∧ shape.EndsAt context
  | .fields properties, .fields fields =>
    fields.map Field.entry = properties.map fun property => (property.name, property.required)
  | .record properties additional, .record shape => shape.outline =
    .record (properties.map fun property => (property.name, property.required)) additional.isSome
  | .members nodes _, .inputs inputs =>
    (∀ node ∈ nodes, node.Outlines context .written (context.outlineOf node)) ∧
    inputs.map IntersectionMember.entry = nodes.flatMap context.entriesOf ∧
    (∀ input ∈ inputs, input.shape.EndsAt context ∧ ∀ name ∈ input.reference,
      ∃ schema, context.emitted? schema = some name ∧ context.OutlinesSchema schema input.outline) ∧
    ∀ node ∈ nodes, ∀ target, node.kind.referenceTarget? = some target →
      (context.emitted? target).isSome = true
  | .intersection nodes _, .shape shape => context.OutlinesShape nodes shape
  | .take shape, .member taken =>
    (∃ type schema, shape = .alias type ∧ context.schemaOf? type = some schema ∧
      type.nullable = false ∧ context.OutlinesSchema schema taken.outline ∧ taken.EndsAt context) ∨
    taken = shape.taken ∧ ∀ type, shape = .alias type → type.nullable = false →
      context.schemaOf? type = none
  | _, _ => True

variable {context : Context} {expanding : List String} {first last : Workspace}

/-- A type that a node contributes as such says nothing if the node does not. -/
theorem Yields.isAny_of_contributesType {node : SchemaNode} {depth : Nat} {type : TypeExpr}
    (yields : Yields context expanding first (.expression node depth) (.type type) last)
    (isType : node.contributesType = true) : type.isAny = node.kind.isAny := by
  -- Nodes that contribute their types keep their kinds, but for enumerations, which become names.
  obtain ⟨kind, traits⟩ := node
  cases kind with
  | map | object | composed | reference => cases isType
  | primitive | any | null =>
    cases yields with
    | constant isConstant =>
      cases isConstant
      rfl
    | promoteAlias isDeclared | promote isDeclared => cases isDeclared
  | array =>
    cases yields with
    | constant isConstant => cases isConstant
    | array => rfl
    | promoteAlias isDeclared | promote isDeclared => cases isDeclared
  | enum =>
    cases yields with
    | constant isConstant => cases isConstant
    | promoteAlias _ declares =>
      cases declares with
      | declarePlain isPlain => cases isPlain
    | promote => rfl

/-- What a node requires beside its contribution has the outline that its traits say. -/
theorem Surroundings.entry_requiredMembers (node : SchemaNode) (label : String) :
    (requiredMembers node label).map IntersectionMember.entry =
      node.requiredOutlines.map fun outline => (outline, none) := by
  obtain ⟨kind, traits⟩ := node
  cases kind with
  | object =>
    simp only [requiredMembers, SchemaNode.requiredOutlines]
    split <;> rfl
  | _ => rfl

/-- What an intersection takes as a whole is no choice. -/
theorem SchemaModel.not_isUnion_of_isAtomic (model : SchemaModel) {node : SchemaNode}
    (isAtomic : node.isAtomic = true) : model.isUnion node = false := by
  rw [Bool.eq_false_iff, ne_eq, model.isUnion_iff]
  intro isChoice
  cases isChoice <;> cases isAtomic

/-- What members merge into contributes what the outline of the merge says. -/
theorem MergesInto.outlinesShape {inputs : List IntersectionMember} {nodes : List SchemaNode}
    {shape : Shape} {outline : Outline} (merges : MergesInto inputs shape outline)
    (whole : context.OutlinesMembers nodes outline)
    (each : ∀ input ∈ inputs, input.shape.EndsAt context ∧ ∀ name ∈ input.reference,
      ∃ schema, context.emitted? schema = some name ∧ context.OutlinesSchema schema input.outline) :
    context.OutlinesShape nodes shape := by
  cases merges with
  | record => exact whole
  | nothing => exact ⟨fun _ _ named => absurd named (Context.schemaOf?_ne_of_unnamed rfl), fun _ => whole⟩
  | @reference input name isInput isTyped notUnion isName =>
    obtain ⟨schema, emitted, outlines⟩ := (each input isInput).2 name isName
    have named := context.schemaOf?_named emitted false
    refine ⟨fun other outline isNamed _ also => ?_, fun unnamed => ?_⟩
    · cases named.symm.trans isNamed
      -- The only typed member is expanded again, and has the same outline then.
      have isSame := (also .referred {}).unique (outlines .referred {})
      have notAny := (also .referred {}).ne_any
      rw [← input.isTyped_outline, ← isSame] at isTyped
      rw [← input.isUnion_outline, ← isSame] at notUnion
      have isWhole : Outline.single [input.outline] = outline := by
        rw [← isSame]
        cases outline with
        | scalar isAny => cases isAny <;> first | rfl | exact absurd rfl notAny
        | record => rfl
        | required | unconstrained => cases isTyped
        | union => cases notUnion
      exact isWhole ▸ whole
    · cases named.symm.trans (unnamed rfl)
  | @scalar input type isInput isInline isScalar =>
    have ends := (each input isInput).1
    rw [isScalar] at ends
    refine ⟨fun schema outline named direct outlines => ?_, fun unnamed => ?_⟩
    · -- The type is the name of an atomic schema, which is expanded to that name.
      obtain ⟨node, found, isAtomic⟩ := ends direct schema named
      have also : context.OutlinesSchema schema (.scalar false) := fun _ _ =>
        .reference found (context.model.not_isUnion_of_isAtomic isAtomic) (.atomic isAtomic)
      cases (outlines .referred {}).unique (also .referred {})
      obtain ⟨name, isName, _⟩ := (context.schemaOf?_eq_some_iff type schema).mp named
      obtain ⟨kind, nullable, constraints⟩ := type
      cases kind <;> first | exact whole | cases isName
    · obtain ⟨kind, nullable, constraints⟩ := type
      cases kind <;> exact whole

/-- What comes of a task has the outline of its nodes. -/
theorem Yields.outlined {task : Task} {value : Value}
    (yields : Yields context expanding first task value last) (consistent : Consistent context first) :
    Outlined context task value := by
  -- The induction is on how the value is yielded. What matters are contributions to intersections; of a
  -- member both its outline and what it is named by are followed up to the merge.
  induction yields with
  | constant | array | map | use | promoteAlias | promote | declarePlain | declareEnum
  | declareRecord | declareIntersection | declareChoice | declareDiscriminated | reference | casesNil
  | casesNull | casesCons | mappingNil | mappingCons => trivial
  | contributeType isType inside =>
    refine ⟨?_, fun _ schema named => inside.isAtomic_of_contributesType consistent isType named⟩
    rw [MemberShape.outline, inside.isAny_of_contributesType isType]
    exact .type isType
  | contributeRestriction isEmpty =>
    refine ⟨.restriction isEmpty, ?_⟩
    unfold SchemaNode.restriction
    split <;> trivial
  | contributeMap => exact ⟨.map, trivial⟩
  | contributeRecord _ ih =>
    refine ⟨?_, trivial⟩
    rw [MemberShape.outline, ih consistent]
    exact .object
  | @contributeIntersection _ _ middle _ members discriminator traits depth shape taken inside takes
      ih takesIh =>
    have outlines := ih consistent
    rcases takesIh (inside.advances consistent).1 with
      ⟨type, schema, rfl, named, direct, outlinesSchema, ends⟩ | ⟨rfl, unnamed⟩
    · exact ⟨outlines.1 schema _ named direct outlinesSchema _ _ _, ends⟩
    · cases shape with
      | record shape => exact ⟨outlines _ _ _, trivial⟩
      | enum | union => cases outlines
      | «alias» type =>
        refine ⟨outlines.2 (unnamed type rfl) _ _ _, ?_⟩
        obtain ⟨kind, nullable, constraints⟩ := type
        cases kind with
        | any => trivial
        | _ =>
          intro direct schema named
          cases named.symm.trans (unnamed _ rfl direct)
  | contributeChoice isChoice => exact ⟨.choice isChoice, trivial⟩
  | expandAtomic isAtomic => exact ⟨.atomic isAtomic, .inl ⟨rfl, isAtomic⟩⟩
  | expandRestriction isEmpty =>
    refine ⟨.restriction isEmpty, .inr ?_⟩
    unfold SchemaNode.restriction
    split <;> trivial
  | expandRecord _ ih =>
    refine ⟨?_, .inr trivial⟩
    rw [MemberShape.outline, ih consistent]
    exact .object
  | expandReference looked _ _ ih =>
    obtain ⟨outlines, ends⟩ := ih (looked.advances consistent).1
    exact ⟨outlines _ _, .inr ends⟩
  | expandIntersection _ ih =>
    obtain ⟨outlines, ends⟩ := ih consistent
    exact ⟨outlines.outlinesMembers _ _ _, .inr ends⟩
  | schemaChoice _ found isChoice => exact ⟨fun _ _ => .referenceChoice found isChoice, trivial⟩
  | schema fresh found notChoice emitted _ ih =>
    obtain ⟨outlines, ends⟩ := ih consistent
    refine ⟨fun _ _ => .reference found notChoice outlines, ?_⟩
    rcases ends with ⟨rfl, isAtomic⟩ | ends
    · intro _ schema named
      cases (context.schemaOf?_named emitted false).symm.trans named
      exact ⟨_, found, isAtomic⟩
    · exact ends
  | fieldsNil => rfl
  | fieldsCons inside later ih laterIh =>
    exact congrArg (_ :: ·) (laterIh (inside.advances consistent).1)
  | recordClosed _ ih => exact congrArg (Outline.record · _) (ih consistent)
  | recordOpen _ _ ih => exact congrArg (Outline.record · _) (ih consistent)
  | membersNil => exact ⟨by simp, rfl, by simp, by simp⟩
  | @membersReference _ _ _ _ _ _ traits _ _ _ _ _ _ looked inside later _ ih laterIh =>
    obtain ⟨between, _⟩ := looked.advances consistent
    obtain ⟨outlines, ends⟩ := ih between
    obtain ⟨others, entries, each, named⟩ := laterIh (inside.advances between).1
    have isOutline := (outlines .written traits).outlineOf_eq
    obtain ⟨_, isName, emitted⟩ :=
      (context.schemaOf?_eq_some_iff _ _).mp looked.schemaOf?_reference
    refine ⟨List.forall_mem_cons.mpr ⟨isOutline ▸ outlines _ _, others⟩, ?_,
      List.forall_mem_cons.mpr ⟨⟨ends, fun name isAlso => ?_⟩, each⟩,
      List.forall_mem_cons.mpr ⟨fun target isTarget => ?_, named⟩⟩
    · rw [List.map_cons, entries, List.flatMap_cons, Context.entriesOf, isOutline,
        show (NodeKind.reference _).referenceTarget?.bind context.emitted? = _ from emitted, ← isName]
      rfl
    · cases isName.symm.trans isAlso
      exact ⟨_, emitted, outlines⟩
    · cases isTarget
      rw [emitted]
      rfl
  | membersOther isOther inside later ih laterIh =>
    obtain ⟨outlines, ends⟩ := ih consistent
    obtain ⟨others, entries, each, named⟩ := laterIh (inside.advances consistent).1
    have isOutline := outlines.outlineOf_eq
    refine ⟨List.forall_mem_cons.mpr ⟨isOutline ▸ outlines, others⟩, ?_, ?_,
      List.forall_mem_cons.mpr ⟨fun target isTarget => ?_, named⟩⟩
    · rw [List.map_cons, List.map_append, entries, List.flatMap_cons, Context.entriesOf, isOutline,
        isOther, Surroundings.entry_requiredMembers]
      rfl
    · refine List.forall_mem_cons.mpr ⟨⟨ends, by simp⟩, fun input isInput => ?_⟩
      rcases List.mem_append.mp isInput with isRequired | isLater
      · obtain ⟨names, rfl⟩ := SchemaNode.required_of_requiredMembers isRequired
        exact ⟨trivial, by simp⟩
      · exact each input isLater
    · cases isOther.symm.trans isTarget
  | @intersectionReference _ _ _ nodes _ target _ isOnly notChoice looked =>
    cases looked with
    | @reference _ _ _ _ node name found emitted =>
      have named := context.schemaOf?_named emitted node.inheritsNull
      refine ⟨fun schema outline isNamed direct outlines _ _ _ => ?_, fun unnamed _ _ _ => ?_⟩
      · cases named.symm.trans isNamed
        exact .only isOnly found direct (outlines _ _)
      · cases nullable : node.inheritsNull with
        | true => exact .onlyNullable isOnly found nullable
        | false => cases named.symm.trans (unnamed nullable)
  | @intersectionMembers _ _ _ _ _ _ inputs _ several inside merges notes ih =>
    obtain ⟨outlines, entries, each, _⟩ := ih consistent
    obtain ⟨outline, isMerged, mergesInto⟩ := Intersection.mergesInto_mergeAllOf merges
    have isOutline : inputs.map IntersectionMember.outline =
        (inputs.map IntersectionMember.entry).map Prod.fst := by simp [IntersectionMember.entry]
    rw [isOutline, entries, context.map_fst_entriesOf] at isMerged
    have whole : context.OutlinesMembers _ outline := fun _ _ _ =>
      .members several context.outlineOf outlines isMerged
    exact mergesInto.outlinesShape whole each
  | takeSchema named direct _ ih =>
    obtain ⟨outlines, ends⟩ := ih consistent
    exact .inl ⟨_, _, rfl, named, direct, outlines, ends⟩
  | take unnamed => exact .inr ⟨rfl, unnamed⟩

/-- The name of a member is that of a component schema to which a reference among the nodes leads. -/
theorem Yields.exists_reference {nodes : List SchemaNode} {depth : Nat}
    {inputs : List IntersectionMember}
    (yields : Yields context expanding first (.members nodes depth) (.inputs inputs) last)
    (consistent : Consistent context first) {input : IntersectionMember} (isInput : input ∈ inputs)
    {name : String} (isName : input.reference = some name) :
    ∃ target traits, ⟨.reference target, traits⟩ ∈ nodes ∧ context.emitted? target = some name := by
  obtain ⟨_, entries_eq, _⟩ := yields.outlined consistent
  have isEntry : input.entry ∈ nodes.flatMap context.entriesOf :=
    entries_eq ▸ List.mem_map_of_mem isInput
  obtain ⟨node, isNode, isEntry⟩ := List.mem_flatMap.mp isEntry
  rcases List.mem_cons.mp isEntry with isFirst | isRequired
  · have isTarget := (congrArg Prod.snd isFirst).symm.trans isName
    obtain ⟨target, isTarget, emitted⟩ := Option.bind_eq_some_iff.mp isTarget
    obtain ⟨kind, traits⟩ := node
    cases kind <;> cases isTarget
    exact ⟨_, traits, isNode, emitted⟩
  · -- What is required beside a member has no name.
    obtain ⟨_, _, isEntry⟩ := List.mem_map.mp isRequired
    cases (congrArg Prod.snd isEntry).trans isName

end ApiTypes

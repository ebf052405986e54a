import ApiTypes.Proofs.Synthesis.Coverage

/-!
Choices in intersections. Whatever comes of a task, no intersection in its nodes has a choice among its
members, neither in place nor behind references or inside other members; but an intersection that stands
for a reference sees only that this leads to no choice directly.
-/

namespace ApiTypes

namespace SchemaNode

/-- An intersection of some members stands in a node, at its top or at any depth inside it. -/
inductive Intersects : SchemaNode → List SchemaNode → Prop
  | here {members : List SchemaNode} {discriminator : Option Discriminator} {traits : NodeTraits} :
    Intersects ⟨.composed .allOf members discriminator, traits⟩ members
  | items {items : SchemaNode} {traits : NodeTraits} {members : List SchemaNode}
    (inside : Intersects items members) : Intersects ⟨.array items, traits⟩ members
  | value {value : SchemaNode} {traits : NodeTraits} {members : List SchemaNode}
    (inside : Intersects value members) : Intersects ⟨.map value, traits⟩ members
  | property {properties : List (Property SchemaNode)} {additional : Option SchemaNode}
    {traits : NodeTraits} {property : Property SchemaNode} {members : List SchemaNode}
    (isListed : property ∈ properties) (inside : Intersects property.schema members) :
    Intersects ⟨.object properties additional, traits⟩ members
  | additional {properties : List (Property SchemaNode)} {additional : Option SchemaNode}
    {traits : NodeTraits} {value : SchemaNode} {members : List SchemaNode} (isValue : value ∈ additional)
    (inside : Intersects value members) : Intersects ⟨.object properties additional, traits⟩ members
  | member {kind : CompositionKind} {nodes : List SchemaNode} {discriminator : Option Discriminator}
    {traits : NodeTraits} {node : SchemaNode} {members : List SchemaNode} (isMember : node ∈ nodes)
    (inside : Intersects node members) : Intersects ⟨.composed kind nodes discriminator, traits⟩ members

/-- A node is a choice, or leads to one by references and by members of intersections. -/
inductive Chooses (lookup : String → Option SchemaNode) : SchemaNode → Prop
  | choice {kind : CompositionKind} {members : List SchemaNode}
    {discriminator : Option Discriminator} {traits : NodeTraits} (isChoice : kind ≠ .allOf) :
    Chooses lookup ⟨.composed kind members discriminator, traits⟩
  | reference {target : String} {traits : NodeTraits} {node : SchemaNode}
    (found : lookup target = some node) (inside : Chooses lookup node) :
    Chooses lookup ⟨.reference target, traits⟩
  | member {members : List SchemaNode} {discriminator : Option Discriminator} {traits : NodeTraits}
    {member : SchemaNode} (isMember : member ∈ members) (inside : Chooses lookup member) :
    Chooses lookup ⟨.composed .allOf members discriminator, traits⟩

/-- An intersection stands for a component schema that is no choice. -/
def StandsFor (model : SchemaModel) (members : List SchemaNode) (target : String) : Prop :=
  onlyReference? members = some target ∧
    ∃ node, model.node? target = some node ∧ model.isUnion node = false

/--
No intersection in a node has a member that is a choice or leads to one, unless it stands for a component
schema of the given ones.
-/
def Cleared (model : SchemaModel) (uses : String → Prop) (node : SchemaNode) : Prop :=
  ∀ members, node.Intersects members →
    (∀ member ∈ members, ¬member.Chooses model.node?) ∨
      ∃ target, StandsFor model members target ∧ uses target

section

variable {model : SchemaModel} {node : SchemaNode} {uses : String → Prop}

/-- Fewer intersections are excepted where fewer component schemas are given. -/
theorem Cleared.mono {more : String → Prop} (cleared : node.Cleared model uses)
    (isMore : ∀ target, uses target → more target) : node.Cleared model more :=
  fun members intersects => (cleared members intersects).imp_right fun ⟨target, standsFor, isUsed⟩ =>
    ⟨target, standsFor, isMore target isUsed⟩

/-- An intersection is cleared with its members. -/
theorem Cleared.intersection {members : List SchemaNode} {discriminator : Option Discriminator}
    {traits : NodeTraits}
    (own : (∀ member ∈ members, ¬member.Chooses model.node?) ∨
      ∃ target, StandsFor model members target ∧ uses target)
    (inside : ∀ member ∈ members, member.Cleared model uses) :
    Cleared model uses ⟨.composed .allOf members discriminator, traits⟩ := by
  intro others intersects
  cases intersects with
  | here => exact own
  | member isMember intersects => exact inside _ isMember others intersects

/-- A node without nodes inside it has no intersections in it. -/
theorem not_intersects_of_constant? {type : TypeExpr} (isConstant : node.constant? = some type)
    (members : List SchemaNode) : ¬node.Intersects members := by
  obtain ⟨kind, traits⟩ := node
  intro intersects
  cases intersects with
  | @property properties _ _ _ _ isListed =>
    cases properties with
    | nil => cases isListed
    | cons => cases isConstant
  | @additional properties _ _ _ _ isValue =>
    cases isValue
    cases properties <;> cases isConstant
  | _ => cases isConstant

/-- A node that only places a restriction is no choice. -/
theorem not_chooses_of_isUnconstrained (isUnconstrained : node.isUnconstrained = true) :
    ¬node.Chooses model.node? := by
  intro chooses
  cases chooses <;> cases isUnconstrained

/-- A node whose uses admit null because its declaration does not is no choice. -/
theorem not_chooses_of_inheritsNull (inheritsNull : node.inheritsNull = true) :
    ¬node.Chooses model.node? := by
  intro chooses
  cases chooses <;> simp [SchemaNode.inheritsNull] at inheritsNull

/-- The type of a component schema is no choice if it is taken as a whole. -/
theorem not_chooses_of_isAtomic (isAtomic : node.isAtomic = true) : ¬node.Chooses model.node? := by
  intro chooses
  cases chooses <;> cases isAtomic

/-- A node that contributes its type is no choice. -/
theorem not_chooses_of_contributesType (isType : node.contributesType = true) :
    ¬node.Chooses model.node? := by
  intro chooses
  cases chooses <;> cases isType

/-- An intersection that stands for a reference has no others in its members. -/
theorem StandsFor.cleared {members : List SchemaNode} {target : String}
    (standsFor : StandsFor model members target) (isMember : node ∈ members) :
    node.Cleared model uses := by
  obtain ⟨kind, traits⟩ := node
  intro others intersects
  -- The members are a reference and restrictions without a meaning, and neither has nodes inside.
  rcases cases_of_onlyReference? standsFor.1 _ isMember with isUnconstrained | isReference
  · cases intersects <;> cases isUnconstrained
  · cases intersects <;> cases isReference

/-- An intersection that stands for a component schema leads to a choice only by that. -/
theorem StandsFor.not_chooses {members : List SchemaNode} {target : String} {node : SchemaNode}
    (standsFor : StandsFor model members target) (found : model.node? target = some node)
    (notChoice : ¬node.Chooses model.node?) : ∀ member ∈ members, ¬member.Chooses model.node? := by
  intro member isMember chooses
  obtain ⟨kind, traits⟩ := member
  rcases cases_of_onlyReference? standsFor.1 _ isMember with isUnconstrained | isReference
  · exact not_chooses_of_isUnconstrained isUnconstrained chooses
  · cases chooses with
    | reference alsoFound inside =>
      cases isReference
      cases found.symm.trans alsoFound
      exact notChoice inside
    | choice | member => cases isReference

end

end SchemaNode

/-- What a task excludes, by what comes of it, about choices in the intersections of its nodes. -/
def Excludes (context : Context) : Task → Value → Prop
  | .declare node _, .shape _ => node.Cleared context.model node.Uses
  | .expression node _, .type _ => node.Cleared context.model node.Uses
  | .contribute node _, .member shape => shape ≠ .union →
    node.Cleared context.model node.Contributes ∧ ¬node.Chooses context.model.node?
  | .expand node _, .member shape => shape ≠ .union → ¬node.Chooses context.model.node?
  | .schema schema, .member shape => shape ≠ .union →
    ∀ node, context.model.node? schema = some node → ¬node.Chooses context.model.node?
  | .fields properties, .fields _ =>
    ∀ property ∈ properties, property.schema.Cleared context.model property.schema.Uses
  | .record properties additional, .record _ =>
    (∀ property ∈ properties, property.schema.Cleared context.model property.schema.Uses) ∧
      ∀ value ∈ additional, value.Cleared context.model value.Uses
  | .cases nodes _, .names _ _ => ∀ node ∈ nodes, node.Cleared context.model node.Uses
  | .members nodes _, .inputs inputs => (∀ input ∈ inputs, input.shape ≠ .union) →
    ∀ node ∈ nodes, node.Cleared context.model node.Contributes ∧
      ¬node.Chooses context.model.node?
  | .intersection nodes _, .shape shape =>
    (∀ node ∈ nodes, node.Cleared context.model node.Contributes) ∧
      ((∀ node ∈ nodes, ¬node.Chooses context.model.node?) ∨
        ∃ target type, SchemaNode.StandsFor context.model nodes target ∧ shape = .alias type ∧
          context.schemaOf? type = some target ∧ (type.nullable = true →
            ∀ node, context.model.node? target = some node → node.inheritsNull = true))
  | .take shape, .member taken => taken ≠ .union → ∀ type schema, shape = .alias type →
    type.nullable = false → context.schemaOf? type = some schema →
      ∀ node, context.model.node? schema = some node → ¬node.Chooses context.model.node?
  | _, _ => True

variable {context : Context} {expanding : List String} {first last : Workspace}

/-- Members that merge are no choices. -/
theorem IntersectionMember.shape_ne_union {members : List IntersectionMember} {merged : Merged}
    {equivalent : TypeKind TypeExpr → TypeKind TypeExpr → Bool}
    (isMerged : mergeAllOf members equivalent = .ok merged) :
    ∀ member ∈ members, member.shape ≠ .union := by
  intro member isMember isUnion
  have notUnion := (Intersection.mergeAllOf_cases isMerged).1 member isMember
  simp [Intersection.isUnion, isUnion] at notUnion

/-- A declaration comes to a shape. -/
theorem Yields.exists_shape {node : SchemaNode} {depth : Nat} {value : Value}
    (yields : Yields context expanding first (.declare node depth) value last) :
    ∃ shape, value = .shape shape := by
  cases yields <;> exact ⟨_, rfl⟩

/-- A task that yields a value has found no choice among the members of intersections. -/
theorem Yields.excludes {task : Task} {value : Value}
    (yields : Yields context expanding first task value last) : Excludes context task value := by
  -- What is known of the parts of a node is known under more uses at the node itself.
  induction yields with
  | mappingNil | mappingCons | reference => trivial
  | constant isConstant =>
    exact fun members intersects =>
      absurd intersects (SchemaNode.not_intersects_of_constant? isConstant members)
  | array _ _ ih =>
    intro members intersects
    cases intersects with
    | items inside => exact ih.mono (fun _ => .items) members inside
  | map _ ih =>
    intro members intersects
    cases intersects with
    | value inside => exact ih.mono (fun _ => .value) members inside
  | use => exact fun _ intersects => nomatch intersects
  | promoteAlias _ _ ih | promote _ _ _ _ _ _ ih | declarePlain _ _ _ ih => exact ih
  | declareEnum => exact fun _ intersects => nomatch intersects
  | declareRecord _ _ _ ih =>
    intro members intersects
    cases intersects with
    | property isListed inside =>
      exact (ih.1 _ isListed).mono (fun _ => .property isListed) members inside
    | additional isValue inside =>
      exact (ih.2 _ isValue).mono (fun _ => .additional isValue) members inside
  | declareIntersection _ _ ih =>
    refine .intersection (ih.2.imp_right ?_) fun member isMember =>
      (ih.1 member isMember).mono fun _ => .member isMember
    rintro ⟨target, _, standsFor, _⟩
    exact ⟨target, standsFor, .only standsFor.1⟩
  | declareChoice isChoice _ _ _ ih =>
    intro members intersects
    cases intersects with
    | here => exact absurd rfl isChoice
    | member isMember inside =>
      exact (ih _ isMember).mono (fun _ => .case isChoice isMember) members inside
  | declareDiscriminated isChoice _ _ _ _ ih =>
    intro members intersects
    cases intersects with
    | here => exact absurd rfl isChoice
    | member isMember inside =>
      exact (ih _ isMember).mono (fun _ => .case isChoice isMember) members inside
  | contributeType isType _ ih =>
    refine fun _ => ⟨fun members intersects => ?_, SchemaNode.not_chooses_of_contributesType isType⟩
    -- Of the nodes that contribute types only arrays have nodes inside them.
    cases intersects with
    | items inside =>
      refine (ih members (.items inside)).imp_right ?_
      rintro ⟨target, standsFor, uses⟩
      cases uses with
      | items uses => exact ⟨target, standsFor, .items uses⟩
    | _ => cases isType
  | contributeRestriction =>
    exact fun _ => ⟨(fun _ intersects => nomatch intersects), (fun chooses => nomatch chooses)⟩
  | contributeMap _ ih =>
    refine fun _ => ⟨fun members intersects => ?_, fun chooses => nomatch chooses⟩
    cases intersects with
    | value inside => exact ih.mono (fun _ => .value) members inside
  | contributeRecord _ ih =>
    refine fun _ => ⟨fun members intersects => ?_, fun chooses => nomatch chooses⟩
    cases intersects with
    | property isListed inside =>
      exact (ih.1 _ isListed).mono (fun _ => .property isListed) members inside
    | additional isValue inside =>
      exact (ih.2 _ isValue).mono (fun _ => .additional isValue) members inside
  | @contributeIntersection _ _ _ _ members _ _ _ _ _ _ _ ih takesIh =>
    intro notUnion
    have ⟨inside, own⟩ := ih
    have noChoice : ∀ member ∈ members, ¬member.Chooses context.model.node? := by
      rcases own with noChoice | ⟨target, type, standsFor, isAlias, isNamed, nullable⟩
      · exact noChoice
      · -- What the intersection stands for is expanded here, unless it is a type that admits null.
        obtain ⟨node, found, _⟩ := standsFor.2
        refine standsFor.not_chooses found ?_
        cases isNull : type.nullable with
        | true => exact SchemaNode.not_chooses_of_inheritsNull (nullable isNull node found)
        | false => exact takesIh notUnion type target isAlias isNull isNamed node found
    refine ⟨.intersection (.inl noChoice) fun member isMember =>
      (inside member isMember).mono fun _ => .member isMember, fun chooses => ?_⟩
    cases chooses with
    | choice isChoice => exact isChoice rfl
    | member isMember chooses => exact noChoice _ isMember chooses
  | contributeChoice => exact fun notUnion => absurd rfl notUnion
  | expandAtomic isAtomic => exact fun _ => SchemaNode.not_chooses_of_isAtomic isAtomic
  | expandRestriction | expandRecord => exact fun _ chooses => nomatch chooses
  | expandReference _ _ _ ih =>
    intro notUnion chooses
    cases chooses with
    | reference found inside => exact ih notUnion _ found inside
  | expandIntersection _ ih => exact fun notUnion => (ih notUnion).2
  | schemaChoice => exact fun notUnion => absurd rfl notUnion
  | schema _ found _ _ _ ih =>
    intro notUnion node alsoFound
    cases found.symm.trans alsoFound
    exact ih notUnion
  | fieldsNil | casesNil => exact fun _ isMember => absurd isMember List.not_mem_nil
  | fieldsCons _ _ ih laterIh => exact List.forall_mem_cons.mpr ⟨ih, laterIh⟩
  | recordClosed _ ih => exact ⟨ih, nofun⟩
  | recordOpen _ _ ih furtherIh =>
    refine ⟨ih, fun value isValue => ?_⟩
    cases isValue
    exact furtherIh
  | casesNull isNull _ ih =>
    refine List.forall_mem_cons.mpr ⟨fun members intersects => ?_, ih⟩
    cases intersects <;> cases isNull
  | casesCons _ _ _ _ ih laterIh => exact List.forall_mem_cons.mpr ⟨ih, laterIh⟩
  | membersNil => exact fun _ _ isMember => absurd isMember List.not_mem_nil
  | membersReference _ _ _ _ ih laterIh =>
    intro notUnion
    have ⟨first, later⟩ := List.forall_mem_cons.mp notUnion
    refine List.forall_mem_cons.mpr ⟨⟨(fun _ intersects => nomatch intersects), fun chooses => ?_⟩,
      laterIh later⟩
    cases chooses with
    | reference found inside => exact ih first _ found inside
  | membersOther _ _ _ ih laterIh =>
    intro notUnion
    have ⟨first, later⟩ := List.forall_mem_cons.mp notUnion
    exact List.forall_mem_cons.mpr
      ⟨ih first, laterIh fun input isInput => later input (List.mem_append_right _ isInput)⟩
  -- Here the walk takes a reference for the whole intersection, and looks no further than its target.
  | @intersectionReference _ _ _ nodes _ target _ isOnly notChoice looked =>
    have named := looked.schemaOf?_reference
    cases looked with
    | @reference _ _ _ _ node _ found =>
      have standsFor : SchemaNode.StandsFor context.model nodes target :=
        ⟨isOnly, node, found, by simpa [found] using notChoice⟩
      refine ⟨fun node isNode => standsFor.cleared isNode,
        .inr ⟨target, _, standsFor, rfl, named, fun inherits other isOther => ?_⟩⟩
      cases found.symm.trans isOther
      exact inherits
  | intersectionMembers _ _ merges _ ih =>
    have cleared := ih (IntersectionMember.shape_ne_union merges)
    exact ⟨fun node isNode => (cleared node isNode).1, .inl fun node isNode => (cleared node isNode).2⟩
  | takeSchema named _ _ ih =>
    intro notUnion type schema isAlias _ alsoNamed
    cases isAlias
    cases named.symm.trans alsoNamed
    exact ih notUnion
  | take unnamed =>
    intro _ type schema isAlias direct named
    cases (unnamed type isAlias direct).symm.trans named

end ApiTypes

import ApiTypes.Synthesis.Walk

/-! Walks over nodes kind by kind, and the induction over the nodes of a schema. -/

namespace ApiTypes

namespace SchemaNode

/-- What holds of a node if it does of the nodes inside it holds of every node. -/
@[elab_as_elim] theorem inductionOn {motive : SchemaNode → Prop} (node : SchemaNode)
    (primitive : ∀ base format traits, motive ⟨.primitive base format, traits⟩)
    (enum : ∀ base values traits, motive ⟨.enum base values, traits⟩)
    (array : ∀ items traits, motive items → motive ⟨.array items, traits⟩)
    (map : ∀ value traits, motive value → motive ⟨.map value, traits⟩)
    (object : ∀ properties additional traits,
      (∀ property ∈ properties, motive property.schema) → (∀ value ∈ additional, motive value) →
        motive ⟨.object properties additional, traits⟩)
    (composed : ∀ kind members discriminator traits,
      (∀ member ∈ members, motive member) → motive ⟨.composed kind members discriminator, traits⟩)
    (reference : ∀ target traits, motive ⟨.reference target, traits⟩)
    (any : ∀ traits, motive ⟨.any, traits⟩)
    (null : ∀ traits, motive ⟨.null, traits⟩) : motive node :=
  -- A kind holds what it needs whatever stands beside it, and a list what its members need.
  @SchemaNode.rec motive (fun kind => ∀ traits, motive ⟨kind, traits⟩)
    (fun properties => ∀ property ∈ properties, motive property.schema)
    (fun node? => ∀ node ∈ node?, motive node) (fun nodes => ∀ node ∈ nodes, motive node)
    (fun property => motive property.schema)
    (fun _ traits holds => holds traits)
    primitive enum
    (fun items holds traits => array items traits holds)
    (fun value holds traits => map value traits holds)
    (fun properties additional listed further traits =>
      object properties additional traits listed further)
    (fun kind members discriminator holds traits => composed kind members discriminator traits holds)
    reference any null
    (fun _ isMember => absurd isMember List.not_mem_nil)
    (fun _ _ first rest => List.forall_mem_cons.mpr ⟨first, rest⟩)
    (fun _ isMember => absurd isMember (Option.not_mem_none _))
    (fun _ holds _ isMember => Option.mem_some.mp isMember ▸ holds)
    (fun _ isMember => absurd isMember List.not_mem_nil)
    (fun _ _ first rest => List.forall_mem_cons.mpr ⟨first, rest⟩)
    (fun _ _ _ holds => holds) node

variable {α : Type} (build : NodeKind (SchemaNode × List α) → NodeTraits → List α)

/-- What is listed for the nodes of a list. -/
theorem flatMap_recurseList (nodes : List SchemaNode) :
    (recurseList build nodes).flatMap Prod.snd = nodes.flatMap (recurse build) := by
  induction nodes with
  | nil => rfl
  | cons first rest ih => simp [recurseList, ih]

/-- What is listed for the schemas of properties. -/
theorem flatMap_recurseProperties (properties : List (Property SchemaNode)) :
    ((recurseProperties build properties).flatMap fun property => property.schema.2) =
      properties.flatMap fun property => property.schema.recurse build := by
  induction properties with
  | nil => rfl
  | cons first rest ih => simp [recurseProperties, ih]

end SchemaNode

/-- Something is met by the values of every enumeration in a kind, and something by every discriminator. -/
inductive NodeKind.PartsMeet (values : PrimitiveBase → List Data → Prop)
    (mapping : Discriminator → Prop) : NodeKind SchemaNode → Prop
  | primitive {base : PrimitiveBase} {format : Option String} :
    PartsMeet values mapping (.primitive base format)
  | enum {base : PrimitiveBase} {listed : List Data} (met : values base listed) :
    PartsMeet values mapping (.enum base listed)
  | array {items : SchemaNode} (inside : PartsMeet values mapping items.kind) :
    PartsMeet values mapping (.array items)
  | map {value : SchemaNode} (inside : PartsMeet values mapping value.kind) :
    PartsMeet values mapping (.map value)
  | object {properties : List (Property SchemaNode)} {additional : Option SchemaNode}
    (listed : ∀ property ∈ properties, PartsMeet values mapping property.schema.kind)
    (further : ∀ value ∈ additional, PartsMeet values mapping value.kind) :
    PartsMeet values mapping (.object properties additional)
  | composed {kind : CompositionKind} {members : List SchemaNode}
    {discriminator : Option Discriminator}
    (inside : ∀ member ∈ members, PartsMeet values mapping member.kind)
    (leads : ∀ found ∈ discriminator, mapping found) :
    PartsMeet values mapping (.composed kind members discriminator)
  | reference {target : String} : PartsMeet values mapping (.reference target)
  | any : PartsMeet values mapping .any
  | null : PartsMeet values mapping .null

namespace Surroundings

variable (outside : Surroundings)

/-- A node with its walk. -/
def walked (node : SchemaNode) : WalkedNode := (node, outside.walk node)

/-- What is walked stands beside its node, so the nodes are found again. -/
theorem map_fst_walked (nodes : List SchemaNode) : (nodes.map outside.walked).map Prod.fst = nodes := by
  simp [Function.comp_def, walked]

/-- A property with the walk of its schema. -/
def walkedProperty (property : Property SchemaNode) : Property WalkedNode :=
  { property with schema := outside.walked property.schema }

/-- The nodes of a list are walked one by one. -/
theorem recurseList_eq (nodes : List SchemaNode) :
    SchemaNode.recurseList outside.walkKind nodes = nodes.map outside.walked := by
  induction nodes with
  | nil => rfl
  | cons first rest ih => simp [SchemaNode.recurseList, ih, walked, walk]

/-- The schemas of properties are walked one by one. -/
theorem recurseProperties_eq (properties : List (Property SchemaNode)) :
    SchemaNode.recurseProperties outside.walkKind properties =
      properties.map outside.walkedProperty := by
  induction properties with
  | nil => rfl
  | cons first rest ih => simp [SchemaNode.recurseProperties, ih, walkedProperty, walked, walk]

/-- A node that may be absent is walked if it is there. -/
theorem recurseOption_eq (node? : Option SchemaNode) :
    SchemaNode.recurseOption outside.walkKind node? = node?.map outside.walked := by
  cases node? <;> rfl

variable (traits : NodeTraits)

/-- The walk of a primitive. -/
theorem walk_primitive (base : PrimitiveBase) (format : Option String) :
    outside.walk ⟨.primitive base format, traits⟩ = outside.plainWalk traits fun _ _ =>
      return ⟨.primitive base format, traits.nullable, traits.constraints⟩ := rfl

/-- The walk of an enumeration. -/
theorem walk_enum (base : PrimitiveBase) (values : List Data) :
    outside.walk ⟨.enum base values, traits⟩ =
      outside.declaredWalk traits fun _ _ => return .enum base values := rfl

/-- The walk of an array. -/
theorem walk_array (items : SchemaNode) :
    outside.walk ⟨.array items, traits⟩ = outside.arrayWalk (outside.walked items) traits := rfl

/-- The walk of a map. -/
theorem walk_map (value : SchemaNode) :
    outside.walk ⟨.map value, traits⟩ = outside.mapWalk (outside.walked value) traits := rfl

/-- The walk of an object. -/
theorem walk_object (properties : List (Property SchemaNode)) (additional : Option SchemaNode) :
    outside.walk ⟨.object properties additional, traits⟩ =
      outside.objectWalk (properties.map outside.walkedProperty) (additional.map outside.walked)
        traits := by
  rw [← recurseProperties_eq, ← recurseOption_eq]
  rfl

/-- The walk of an intersection. -/
theorem walk_allOf (members : List SchemaNode) (discriminator : Option Discriminator) :
    outside.walk ⟨.composed .allOf members discriminator, traits⟩ =
      outside.intersectionWalk (members.map outside.walked) traits := by
  rw [← recurseList_eq]
  rfl

/-- The walk of a choice. -/
theorem walk_choice {kind : CompositionKind} (isChoice : kind ≠ .allOf) (members : List SchemaNode)
    (discriminator : Option Discriminator) :
    outside.walk ⟨.composed kind members discriminator, traits⟩ =
      outside.unionWalk kind (members.map outside.walked) discriminator traits := by
  rw [← recurseList_eq]
  cases kind with
  | allOf => contradiction
  | oneOf => rfl
  | anyOf => rfl

/-- The walk of a reference. -/
theorem walk_reference (target : String) :
    outside.walk ⟨.reference target, traits⟩ = outside.referenceWalk target traits := rfl

/-- The walk of a node without any type. -/
theorem walk_any : outside.walk ⟨.any, traits⟩ = outside.anyWalk traits := rfl

/-- The walk of the type that holds null alone. -/
theorem walk_null :
    outside.walk ⟨.null, traits⟩ = outside.plainWalk traits fun _ _ => return ⟨.null, false, {}⟩ :=
  rfl

end Surroundings

end ApiTypes

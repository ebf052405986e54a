import ApiTypes.Proofs.Nullability
import ApiTypes.Proofs.SchemaNodes
import ApiTypes.Proofs.Synthesis.Outlines

/-!
Required fields of intersections. A field of the record to which an intersection is merged is required
if its name is listed as required by a member, by what a member refers to, or by a member of a member,
and if every member on the way hands the name on. A member that refers to an object hands on only the
names of its fields.
-/

namespace ApiTypes

/-- The names of the fields of a record with whether they are required. -/
def Shape.entries : Shape → List (String × Bool)
  | .record shape => shape.fields.map Field.entry
  | .enum .. | .union _ | .alias _ => []

namespace Document

variable (document : Document) (config : Config)

/-- The component schema to which a reference leads. -/
def referenced? (path : String) : Option Schema :=
  document.schemas.get? ((Pointer.schemaName? path).getD path)

/--
A schema lists a name as required, itself, in a schema to which it refers, or in a member of the
intersection that it is, as far as members hand names on.
-/
inductive Lists (handsOn : Schema → String → Prop) : Schema → String → Prop
  | own {keywords : Keywords Schema} {name : String} (single : keywords.allOf = [])
    (isListed : name ∈ keywords.required) : Lists handsOn (.inline keywords) name
  | member {keywords : Keywords Schema} {member : Schema} {name : String}
    (isMember : member ∈ keywords.members) (isHandedOn : handsOn member name)
    (inside : Lists handsOn member name) : Lists handsOn (.inline keywords) name
  | reference {path : String} {schema : Schema} {name : String}
    (found : document.referenced? path = some schema) (inside : Lists handsOn schema name) :
    Lists handsOn (.ref path) name

/--
A member hands a name on that it requires if it is an object itself, or if its contribution has a field of
the name or requires the name without one.
-/
def HandsOn (member : Schema) (name : String) : Prop :=
  (∃ properties additional,
      (member.node document.version).kind = .object properties additional) ∨
    ∃ outline, (member.node document.version).Outlines (document.context config) .written outline ∧
      name ∈ outline.entries.map Prod.fst

/-- A schema gives a record: that of its declaration, or wherever synthesis may come upon it. -/
inductive GivesRecord (schema : Schema) (shape : RecordShape) : Prop
  | component {name : String} {declaration : Declaration}
    (isDefined : document.schemas.get? name = some schema)
    (isEmitted : declaration ∈ (document.synthesize config).declarations)
    (origin : declaration.origin = .component name) (isRecord : declaration.shape = .record shape)
  | inline {muted : Bool} {active expanding : List String} {scope : Scope} {depth : Nat}
    {first last : Workspace} (consistent : Consistent (document.context config) first)
    (started : ∀ other ∈ active, first.resolver.state other ≠ .pending)
    (ends : (((Synthesis.within (document.context config) muted active expanding).walk
      (schema.node document.version)).declare scope depth).Ends first (.ok (.record shape)) last)

/-- What an outline says of required names is what a schema lists. -/
def Tells (schema : Schema) (outline : Outline) : Prop :=
  outline.IsCoherent ∧ ∀ name, (name, true) ∈ outline.entries ↔
    name ∈ outline.entries.map Prod.fst ∧ document.Lists (document.HandsOn config) schema name

variable {document config} {handsOn : Schema → String → Prop} {name : String}

/-- A schema object that is no intersection lists what it lists itself. -/
theorem lists_single_iff {keywords : Keywords Schema} (single : keywords.allOf = []) :
    document.Lists handsOn (.inline keywords) name ↔ name ∈ keywords.required := by
  refine ⟨fun lists => ?_, .own single⟩
  cases lists with
  | own _ isListed => exact isListed
  | member isMember => simp [Keywords.members, single] at isMember

/-- An intersection lists what its members hand on. -/
theorem lists_several_iff {keywords : Keywords Schema} (several : keywords.allOf ≠ []) :
    document.Lists handsOn (.inline keywords) name ↔
      ∃ member ∈ keywords.members, handsOn member name ∧ document.Lists handsOn member name := by
  constructor
  · intro lists
    cases lists with
    | own single => exact absurd single several
    | member isMember isHandedOn inside => exact ⟨_, isMember, isHandedOn, inside⟩
  · rintro ⟨member, isMember, isHandedOn, inside⟩
    exact .member isMember isHandedOn inside

/-- A reference lists what the schema lists to which it leads. -/
theorem lists_ref_iff {path : String} {schema : Schema}
    (found : document.referenced? path = some schema) :
    document.Lists handsOn (.ref path) name ↔ document.Lists handsOn schema name := by
  refine ⟨fun lists => ?_, .reference found⟩
  cases lists with
  | reference isFound inside =>
    cases found.symm.trans isFound
    exact inside

/-- An outline without any name tells nothing. -/
theorem tells_of_entries_eq_nil {schema : Schema} {outline : Outline} (isEmpty : outline.entries = []) :
    document.Tells config schema outline := by
  refine ⟨fun name first second isFirst => ?_, fun name => ?_⟩
  · simp [isEmpty] at isFirst
  · simp [isEmpty]

/-- An outline that says of each of its names whether it is required tells what the schema lists. -/
theorem tells_of_entries {keywords : Keywords Schema} (single : keywords.allOf = []) {outline : Outline}
    (exact : ∀ entry ∈ outline.entries, entry.2 = keywords.required.contains entry.1) :
    document.Tells config (.inline keywords) outline := by
  refine ⟨fun name first second isFirst isSecond =>
    (exact _ isFirst).trans (exact _ isSecond).symm, fun name => ?_⟩
  rw [lists_single_iff single, List.mem_map]
  constructor
  · intro isEntry
    exact ⟨⟨_, isEntry, rfl⟩, List.contains_iff_mem.mp (exact _ isEntry).symm⟩
  · rintro ⟨⟨⟨_, flag⟩, isEntry, rfl⟩, isListed⟩
    obtain rfl : flag = true := (exact _ isEntry).trans (List.contains_iff_mem.mpr isListed)
    exact isEntry

/-- What a node requires that says nothing else are the entries of its outline. -/
theorem entries_restriction (traits : NodeTraits) : (SchemaNode.restriction traits).outline.entries =
    traits.required.map fun name => (name, true) := by
  unfold SchemaNode.restriction
  split
  · rename_i isEmpty
    rw [List.isEmpty_iff.mp isEmpty]
    rfl
  · rfl

/-- The node of a schema object that is no intersection tells what the schema lists. -/
theorem tells_single {keywords : Keywords Schema} (single : keywords.allOf = [])
    {placement : Placement} {outline : Outline}
    (outlines : ((Schema.inline keywords).node document.version).Outlines
      (document.context config) placement outline) :
    document.Tells config (.inline keywords) outline := by
  -- A schema without members lowers to an object, or to a node without names of its own.
  have isKind := Schema.kind_node_of_single document.version single
  have isRequired := Schema.required_node document.version keywords
  generalize (Schema.inline keywords).node document.version = node at *
  cases outlines with
  | atomic | type | map | choice | referenceChoice | onlyNullable => exact tells_of_entries_eq_nil rfl
  | restriction =>
    refine tells_of_entries single fun entry isEntry => ?_
    rw [entries_restriction, List.mem_map] at isEntry
    obtain ⟨name, isName, rfl⟩ := isEntry
    rw [show _ = Lowering.undeclaredRequired keywords from isRequired] at isName
    simpa using (List.mem_filter.mp isName).1
  | object =>
    refine tells_of_entries single fun entry isEntry => ?_
    rcases isKind with ⟨_, isObject⟩ | isUnlisted
    · cases isObject
      simp only [Outline.entries, Outline.fields, Outline.names, Schema.properties, List.map_map,
        List.map_nil, List.append_nil, List.mem_map] at isEntry
      obtain ⟨_, _, rfl⟩ := isEntry
      rfl
    · cases isUnlisted
  | reference | only | members =>
    rcases isKind with ⟨_, isObject⟩ | isUnlisted
    · cases isObject
    · cases isUnlisted

/-- What an object requires without a property are the names in its traits. -/
theorem exists_requiredOutlines_iff (properties : List (Property SchemaNode))
    (additional : Option SchemaNode) (traits : NodeTraits) (name : String) :
    (∃ entry ∈ (⟨.object properties additional, traits⟩ : SchemaNode).requiredOutlines,
      (name, true) ∈ entry.entries) ↔ name ∈ traits.required := by
  unfold SchemaNode.requiredOutlines
  dsimp only
  split
  · rename_i isEmpty
    simp [List.isEmpty_iff.mp isEmpty]
  · simp [Outline.mem_entries_iff, Outline.fields, Outline.names]

/-- An object requires in an intersection all that it lists. -/
theorem object_requires_iff {keywords : Keywords Schema} {additional : Option SchemaNode}
    {traits : NodeTraits} (isRequired : traits.required = Lowering.undeclaredRequired keywords)
    (version : SpecVersion) (name : String) :
    (∃ entry ∈ Outline.record
        ((Schema.properties version keywords).map fun property => (property.name, property.required))
        additional.isSome ::
        (⟨.object (Schema.properties version keywords) additional, traits⟩ : SchemaNode).requiredOutlines,
      (name, true) ∈ entry.entries) ↔ name ∈ keywords.required := by
  -- A required name is that of a property, or it is one that the node lists as undeclared.
  have isDeclared : (name, true) ∈ (Outline.record
      ((Schema.properties version keywords).map fun property => (property.name, property.required))
      additional.isSome).entries ↔
        keywords.properties.contains name = true ∧ name ∈ keywords.required := by
    simp only [Outline.mem_entries_iff, Outline.fields, Outline.names, List.not_mem_nil, or_false,
      Schema.properties, List.map_map, List.mem_map, Table.contains, List.any_eq_true, beq_iff_eq]
    constructor
    · rintro ⟨entry, isEntry, same⟩
      obtain ⟨rfl, isListed⟩ := Prod.mk.inj same
      exact ⟨⟨entry, isEntry, rfl⟩, List.contains_iff_mem.mp isListed⟩
    · rintro ⟨⟨entry, isEntry, rfl⟩, isListed⟩
      exact ⟨entry, isEntry, congrArg _ (List.contains_iff_mem.mpr isListed)⟩
  rw [List.exists_mem_cons_iff, isDeclared, exists_requiredOutlines_iff, isRequired,
    Lowering.undeclaredRequired, List.mem_filter]
  cases keywords.properties.contains name <;> simp

/-- Any schema that is written as a member requires in the intersection what it lists and hands on. -/
theorem requires_iff {schema : Schema} {outline : Outline}
    (outlines : (schema.node document.version).Outlines (document.context config) .written outline)
    (tells : document.Tells config schema outline) (name : String) :
    (∃ entry ∈ outline :: (schema.node document.version).requiredOutlines,
      (name, true) ∈ entry.entries) ↔
        document.HandsOn config schema name ∧ document.Lists (document.HandsOn config) schema name := by
  -- Objects hand on all that they list; other nodes hand on what their outlines say.
  by_cases isObject : ∃ properties additional,
      (schema.node document.version).kind = .object properties additional
  · rw [and_iff_right (show document.HandsOn config schema name from .inl isObject)]
    obtain ⟨_, additional, isObject⟩ := isObject
    obtain ⟨keywords, rfl, single⟩ := Schema.exists_of_other document.version
      (by rw [isObject]; rfl) (by simp [isObject])
    have isRequired := Schema.required_node document.version keywords
    rcases Schema.kind_node_of_single document.version single with ⟨_, isListed⟩ | isUnlisted
    · rw [lists_single_iff single]
      generalize (Schema.inline keywords).node document.version = node at *
      obtain ⟨kind, traits⟩ := node
      cases isListed
      cases outlines with
      | type isType => cases isType
      | object => exact object_requires_iff isRequired _ name
    · simp [isObject, NodeKind.isUnlisted] at isUnlisted
  · have unnamed : (schema.node document.version).requiredOutlines = [] := by
      unfold SchemaNode.requiredOutlines
      split
      · rename_i isKind
        exact absurd ⟨_, _, isKind⟩ isObject
      · rfl
    have handsOn : document.HandsOn config schema name ↔ name ∈ outline.entries.map Prod.fst := by
      refine ⟨?_, fun isNamed => .inr ⟨outline, outlines, isNamed⟩⟩
      rintro (isObject' | ⟨other, also, isNamed⟩)
      · exact absurd isObject' isObject
      · exact outlines.unique also ▸ isNamed
    rw [unnamed, handsOn, ← tells.2 name]
    simp

/-- So does the node of such a schema in the intersection. -/
theorem member_requires_iff {schema : Schema} {node : SchemaNode} {outline : Outline}
    (isMember : schema.IsMember document.version node)
    (outlines : node.Outlines (document.context config) .written outline)
    (tells : ∀ schema : Schema, schema.node document.version = node →
      document.Tells config schema outline) (name : String) :
    (∃ entry ∈ outline :: node.requiredOutlines, (name, true) ∈ entry.entries) ↔
      document.HandsOn config schema name ∧ document.Lists (document.HandsOn config) schema name := by
  rcases isMember with rfl | ⟨value, isMap, alsoMap⟩
  · exact requires_iff outlines (tells schema rfl) name
  · -- What is said beside a map is lost, and so it is in the schema.
    have also : (schema.node document.version).Outlines (document.context config) .written
        (.record [] true) := by
      generalize schema.node document.version = other at alsoMap
      obtain ⟨kind, traits⟩ := other
      cases alsoMap
      exact .map
    have unnamed {other : SchemaNode} (isMap : other.kind = .map value) : other.requiredOutlines = [] := by
      simp [SchemaNode.requiredOutlines, isMap]
    rw [← requires_iff also (tells_of_entries_eq_nil rfl) name, unnamed isMap, unnamed alsoMap]
    obtain ⟨kind, traits⟩ := node
    cases isMap
    cases outlines with
    | type isType => cases isType
    | map => rfl

/-- The members of an intersection require what its schema lists. -/
theorem members_require_iff {keywords : Keywords Schema} (several : keywords.allOf ≠ [])
    {nodes : List SchemaNode} (lowers : Schema.LowersMembers document.version keywords nodes)
    {outline : SchemaNode → Outline}
    (outlines : ∀ node ∈ nodes,
      node.Outlines (document.context config) .written (outline node))
    (tells : ∀ node ∈ nodes, ∀ schema : Schema, schema.node document.version = node →
      document.Tells config schema (outline node))
    (noChoice : ∀ node ∈ nodes, ∀ kind members discriminator,
      node.kind = .composed kind members discriminator → kind = .allOf) (name : String) :
    (∃ entry ∈ nodes.flatMap fun node => outline node :: node.requiredOutlines,
      (name, true) ∈ entry.entries) ↔
        document.Lists (document.HandsOn config) (.inline keywords) name := by
  -- Members of the schema and of its node correspond, but for the part beside the members, which is no
  -- node if it says nothing.
  rw [lists_several_iff several]
  constructor
  · rintro ⟨entry, isEntry, isRequired⟩
    obtain ⟨node, isNode, isEntry⟩ := List.mem_flatMap.mp isEntry
    rcases lowers.isMember node isNode with ⟨member, isMember, isNodeOf⟩ | ⟨kind, _, _, isChoice, isKind⟩
    · exact ⟨member, isMember, (member_requires_iff isNodeOf (outlines node isNode)
        (tells node isNode) name).mp ⟨entry, isEntry, isRequired⟩⟩
    · exact absurd (noChoice node isNode _ _ _ isKind) isChoice
  · rintro ⟨member, isMember, lists⟩
    rcases lowers.isLowered member isMember with ⟨node, isNode, isNodeOf⟩ | ⟨rfl, isSilent⟩
    · obtain ⟨entry, isEntry, isRequired⟩ := (member_requires_iff isNodeOf (outlines node isNode)
        (tells node isNode) name).mpr lists
      exact ⟨entry, List.mem_flatMap.mpr ⟨node, isNode, isEntry⟩, isRequired⟩
    · have isListed : name ∈ keywords.beside.required := (lists_single_iff rfl).mp lists.2
      rw [show keywords.beside.required = [] from isSilent] at isListed
      cases isListed

/-- What a node requires beside its contribution is required under each name once. -/
theorem isCoherent_of_requiredOutlines {node : SchemaNode} {entry : Outline}
    (isEntry : entry ∈ node.requiredOutlines) : entry.IsCoherent := by
  -- Names that are only listed are all required.
  unfold SchemaNode.requiredOutlines at isEntry
  split at isEntry
  · split at isEntry
    · cases isEntry
    · cases List.mem_singleton.mp isEntry
      intro name first second isFirst isSecond
      simp only [Outline.entries, Outline.fields, Outline.names, List.nil_append, List.mem_map,
        Prod.mk.injEq] at isFirst isSecond
      obtain ⟨_, _, _, rfl⟩ := isFirst
      obtain ⟨_, _, _, rfl⟩ := isSecond
      rfl
  · cases isEntry

/-- The outline of a member says of every name only once whether it is required. -/
theorem member_isCoherent {schema : Schema} {node : SchemaNode} {outline : Outline}
    (isMember : schema.IsMember document.version node)
    (outlines : node.Outlines (document.context config) .written outline)
    (tells : ∀ schema : Schema, schema.node document.version = node →
      document.Tells config schema outline) : outline.IsCoherent := by
  rcases isMember with rfl | ⟨value, isMap, _⟩
  · exact (tells schema rfl).1
  · obtain ⟨kind, traits⟩ := node
    cases isMap
    cases outlines with
    | type isType => cases isType
    | map => nofun

/-- An intersection that stands for a reference tells what the reference tells. -/
theorem tells_only {keywords : Keywords Schema} (several : keywords.allOf ≠ [])
    {nodes : List SchemaNode} (lowers : Schema.LowersMembers document.version keywords nodes)
    {target : String} {outline : Outline} (isOnly : SchemaNode.onlyReference? nodes = some target)
    (outlinesSchema : (document.context config).OutlinesSchema target outline)
    (tells : ∀ path, target = (Pointer.schemaName? path).getD path →
      document.Tells config (.ref path) outline) :
    document.Tells config (.inline keywords) outline := by
  have reference : ∀ node ∈ nodes, node.isUnconstrained = false → node.kind = .reference target :=
    fun node isMember isConstrained =>
      (SchemaNode.cases_of_onlyReference? isOnly node isMember).resolve_left (by simp [isConstrained])
  have noChoice : ∀ node ∈ nodes, ∀ kind members discriminator,
      node.kind = .composed kind members discriminator → kind = .allOf := by
    intro node isMember kind members discriminator isKind
    rcases SchemaNode.cases_of_onlyReference? isOnly node isMember with isUnconstrained | isReference
    · simp [SchemaNode.isUnconstrained, isKind, NodeKind.isAny] at isUnconstrained
    · cases isKind.symm.trans isReference
  -- All members but the reference have an outline that says nothing.
  let each (node : SchemaNode) : Outline := if node.isUnconstrained then .unconstrained else outline
  have outlines : ∀ node ∈ nodes, node.Outlines (document.context config) .written (each node) := by
    intro node isMember
    by_cases isUnconstrained : node.isUnconstrained = true
    · simpa only [each, if_pos isUnconstrained] using
        SchemaNode.outlines_of_isUnconstrained isUnconstrained
    · simp only [each, if_neg isUnconstrained]
      obtain ⟨kind, traits⟩ := node
      cases reference _ isMember (by simpa using isUnconstrained)
      exact outlinesSchema .written traits
  have eachTells : ∀ node ∈ nodes, ∀ schema : Schema, schema.node document.version = node →
      document.Tells config schema (each node) := by
    intro node isMember schema isNode
    by_cases isUnconstrained : node.isUnconstrained = true
    · simpa only [each, if_pos isUnconstrained] using tells_of_entries_eq_nil rfl
    · simp only [each, if_neg isUnconstrained]
      obtain ⟨path, rfl, isPath⟩ := Schema.exists_of_reference document.version
        (isNode ▸ reference node isMember (by simpa using isUnconstrained))
      exact tells path isPath
  have unnamed : ∀ node ∈ nodes, node.requiredOutlines = [] := by
    intro node isMember
    rcases SchemaNode.cases_of_onlyReference? isOnly node isMember with isUnconstrained | isReference
    · obtain ⟨kind, traits⟩ := node
      cases kind <;> first | rfl | cases isUnconstrained
    · simp [SchemaNode.requiredOutlines, isReference]
  obtain ⟨traits, isReference⟩ := SchemaNode.mem_of_onlyReference? isOnly
  have isEach : each ⟨.reference target, traits⟩ = outline := rfl
  refine ⟨?_, fun name => ?_⟩
  · rcases lowers.isMember _ isReference with ⟨member, _, isNodeOf⟩ | ⟨_, _, _, _, isChoice⟩
    · exact member_isCoherent isNodeOf (outlines _ isReference) (eachTells _ isReference)
    · cases isChoice
  rw [← members_require_iff several lowers outlines eachTells noChoice name]
  constructor
  · intro isRequired
    exact ⟨List.mem_map_of_mem isRequired, outline,
      List.mem_flatMap.mpr ⟨_, isReference, isEach ▸ List.mem_cons_self⟩, isRequired⟩
  · rintro ⟨_, entry, isEntry, isRequired⟩
    obtain ⟨node, isMember, isEntry⟩ := List.mem_flatMap.mp isEntry
    rw [unnamed node isMember, List.mem_singleton] at isEntry
    by_cases isUnconstrained : node.isUnconstrained = true
    · simp [isEntry, each, isUnconstrained, Outline.entries, Outline.fields, Outline.names] at isRequired
    · simpa only [isEntry, each, if_neg isUnconstrained] using isRequired

/-- The outline of a node tells what every schema lists whose node it is. -/
theorem tells_of_outlines {node : SchemaNode} {placement : Placement} {outline : Outline}
    (outlines : node.Outlines (document.context config) placement outline) (schema : Schema)
    (isNode : schema.node document.version = node) : document.Tells config schema outline := by
  -- The induction is on how the outline comes of the node; the schema is found again by how it is
  -- lowered.
  induction outlines generalizing schema with
  | atomic | type | map | choice | referenceChoice | onlyNullable => exact tells_of_entries_eq_nil rfl
  | @restriction placement traits isEmpty =>
    obtain ⟨keywords, rfl, single⟩ := Schema.exists_of_other document.version
      (by rw [isNode]; rfl) (by simp [isNode])
    have outlines : ((Schema.inline keywords).node document.version).Outlines
        (document.context config) placement _ := isNode ▸ SchemaNode.Outlines.restriction isEmpty
    exact tells_single single outlines
  | @object placement properties additional traits =>
    obtain ⟨keywords, rfl, single⟩ := Schema.exists_of_other document.version
      (by rw [isNode]; rfl) (by simp [isNode])
    have outlines : ((Schema.inline keywords).node document.version).Outlines
        (document.context config) placement _ := isNode ▸ SchemaNode.Outlines.object
    exact tells_single single outlines
  | @reference _ target _ node outline found notChoice inside ih =>
    obtain ⟨path, rfl, rfl⟩ := Schema.exists_of_reference document.version
      (show _ = NodeKind.reference target by rw [isNode])
    obtain ⟨schema, isSchema, isNode⟩ := Option.map_eq_some_iff.mp
      ((SchemaModel.node?_ofDocument document _).symm.trans found)
    have ⟨coherent, tells⟩ := ih schema isNode
    exact ⟨coherent, fun name => by rw [lists_ref_iff isSchema]; exact tells name⟩
  | @only _ nodes _ _ target node outline isOnly found direct inside ih =>
    obtain ⟨keywords, rfl, several, lowers⟩ := Schema.exists_of_intersection document.version
      (show _ = NodeKind.composed .allOf nodes _ by rw [isNode])
    refine tells_only several lowers isOnly inside.outlinesSchema fun path isPath => ih (.ref path) ?_
    rw [isPath]
    rfl
  | @members _ nodes _ _ merged _ outline inside merges ih =>
    obtain ⟨keywords, rfl, several, lowers⟩ := Schema.exists_of_intersection document.version
      (show _ = NodeKind.composed .allOf nodes _ by rw [isNode])
    have noChoice : ∀ node ∈ nodes, ∀ kind members discriminator,
        node.kind = .composed kind members discriminator → kind = .allOf := by
      intro node isMember kind members discriminator isKind
      refine Decidable.not_not.mp fun isChoice => ?_
      have notUnion := (Outline.merge_cases merges).1 (outline node)
        (List.mem_flatMap.mpr ⟨node, isMember, List.mem_cons_self⟩)
      rw [(inside node isMember).eq_union isKind isChoice] at notUnion
      cases notUnion
    refine ⟨Outline.isCoherent_merge merges fun entry isEntry => ?_, fun name => ?_⟩
    · obtain ⟨node, isMember, isEntry⟩ := List.mem_flatMap.mp isEntry
      rcases List.mem_cons.mp isEntry with rfl | isRequired
      · rcases lowers.isMember node isMember with ⟨member, _, isNodeOf⟩ | ⟨_, _, _, isChoice, isKind⟩
        · exact member_isCoherent isNodeOf (inside node isMember) (ih node isMember)
        · exact absurd (noChoice node isMember _ _ _ isKind) isChoice
      · exact isCoherent_of_requiredOutlines isRequired
    · rw [Outline.mem_entries_merge_iff merges,
        members_require_iff several lowers inside ih noChoice name]

/-- The record that a schema gives is what its node yields. -/
theorem GivesRecord.yields {schema : Schema} {shape : RecordShape}
    (gives : document.GivesRecord config schema shape) :
    ∃ expanding depth first last, Consistent (document.context config) first ∧
      Yields (document.context config) expanding first (.declare (schema.node document.version) depth)
        (.shape (.record shape)) last := by
  -- Declarations come of the rules, and so does whatever is synthesized inside a schema.
  cases gives with
  | @component name declaration isDefined isEmitted origin isRecord =>
    obtain ⟨node, expanding, first, last, found, consistent, yields⟩ :=
      document.yields_of_component config isEmitted origin
    have isNode : schema.node document.version = node := by
      have also : some node = (document.schemas.get? name).map (Schema.node document.version) :=
        found.symm.trans (SchemaModel.node?_ofDocument document name)
      rw [isDefined] at also
      exact (Option.some.inj also).symm
    exact ⟨expanding, 0, first, last, consistent, isRecord ▸ isNode ▸ yields⟩
  | @inline muted active expanding scope depth first last consistent started ends =>
    have adequate := Synthesis.adequate_within (document.context config) muted active expanding
    have walk := adequate.walkFollows (schema.node document.version)
    exact ⟨expanding, depth, first, last, consistent,
      walk.declare scope depth _ _ _ consistent started ends⟩

/--
A field of the record to which an intersection is merged is required exactly if its name is listed as
required in it, in what its members refer to, or in members of its members, and handed on.
-/
theorem required_iff_lists {keywords : Keywords Schema} (several : keywords.allOf ≠ [])
    {shape : RecordShape} (gives : document.GivesRecord config (.inline keywords) shape) {field : Field}
    (isField : field ∈ shape.fields) :
    field.required = true ↔
      document.Lists (document.HandsOn config) (.inline keywords) field.key := by
  obtain ⟨expanding, depth, first, last, consistent, yields⟩ := gives.yields
  have isIntersection := Schema.kind_node_of_several document.version several
  generalize _ ++ Schema.besideNodes document.version keywords = nodes at isIntersection
  generalize isNode : (Schema.inline keywords).node document.version = node at yields isIntersection
  obtain ⟨kind, traits⟩ := node
  cases isIntersection
  -- The record is that of the merge, of which the outline is that of the node.
  have outlines : (document.context config).OutlinesMembers nodes shape.outline := by
    generalize isShape : Shape.record shape = result at yields
    cases yields with
    | declarePlain isPlain => cases isPlain
    | declareChoice isChoice => exact absurd rfl isChoice
    | @declareIntersection _ _ _ _ _ _ _ _ inner notes inside =>
      cases inner with
      | record =>
        cases isShape
        exact inside.outlined (notes.advances consistent).1
      | enum | union | «alias» => cases isShape
  have ⟨coherent, tells⟩ := tells_of_outlines (outlines .written none traits) _ isNode
  have isEntry : (field.key, field.required) ∈ shape.outline.entries := by
    simpa [Outline.entries, RecordShape.outline, Outline.fields, Outline.names] using
      ⟨field, isField, rfl⟩
  have isNamed : field.key ∈ shape.outline.entries.map Prod.fst := List.mem_map_of_mem isEntry
  have lists := tells field.key
  rw [and_iff_right isNamed] at lists
  rw [← lists]
  exact ⟨fun isRequired => isRequired ▸ isEntry, fun isRequired =>
    coherent _ _ _ isEntry isRequired⟩

/-- An extension that gives a base a field whose name the base requires without having it. -/
def requiredLater : Keywords Schema where
  allOf := [
    .ref "#/components/schemas/Base",
    .inline {
      type := some (.single .object)
      properties := ⟨[("later", .inline { type := some (.single .string) })]⟩ }]

/-- The base requires its own field and that of the extension. -/
def requiringBase : Keywords Schema where
  type := some (.single .object)
  properties := ⟨[("own", .inline { type := some (.single .string) })]⟩
  required := ["own", "later"]

/-- A document with the base and the extension. -/
def laterField : Document where
  openapi := "3.1.0"
  info := { title := "Later field", version := "1" }
  components := some {
    schemas := ⟨[("Base", .inline requiringBase), ("Extension", .inline requiredLater)]⟩ }

/-- The extension gives a record in which the field of the base is required, and the later one is not. -/
theorem givesRecord_laterField : ∃ shape, laterField.GivesRecord {} (.inline requiredLater) shape ∧
    (∃ field ∈ shape.fields, field.key = "own" ∧ field.required = true) ∧
      ∃ field ∈ shape.fields, field.key = "later" ∧ field.required = false := by
  have isEmitted : ((laterField.synthesize {}).declarations.any fun declaration =>
      declaration.origin == .component "Extension" &&
        declaration.shape.entries == [("own", true), ("later", false)]) = true := by
    decide +kernel
  obtain ⟨declaration, isEmitted, holds⟩ := List.any_eq_true.mp isEmitted
  obtain ⟨origin, entries⟩ := Bool.and_eq_true_iff.mp holds
  cases isShape : declaration.shape with
  | record shape =>
    rw [isShape] at entries
    have field (entry : String × Bool) (isEntry : entry ∈ [("own", true), ("later", false)]) :
        ∃ field ∈ shape.fields, field.key = entry.1 ∧ field.required = entry.2 := by
      obtain ⟨field, isField, rfl⟩ := List.mem_map.mp (eq_of_beq entries ▸ isEntry)
      exact ⟨field, isField, rfl, rfl⟩
    exact ⟨shape, .component rfl isEmitted (eq_of_beq origin) isShape, field ("own", true) (by simp),
      field ("later", false) (by simp)⟩
  | enum | union | «alias» => simp [isShape, Shape.entries] at entries

/-- The own field is required, and listed by the base, which hands it on. -/
theorem required_iff_lists_laterField : requiredLater.allOf ≠ [] ∧ ∃ shape field,
    laterField.GivesRecord {} (.inline requiredLater) shape ∧ field ∈ shape.fields ∧
      field.key = "own" ∧ field.required = true ∧
      laterField.Lists (laterField.HandsOn {}) (.inline requiredLater) "own" := by
  obtain ⟨shape, gives, ⟨field, isField, isOwn, isRequired⟩, _⟩ := givesRecord_laterField
  have several : requiredLater.allOf ≠ [] := by simp [requiredLater]
  exact ⟨several, shape, field, gives, isField, isOwn, isRequired,
    isOwn ▸ (required_iff_lists several gives isField).mp isRequired⟩

/-- The later field is listed by the base, which does not hand it on, and it is not required. -/
theorem not_required_laterField :
    ¬∀ (document : Document) (config : Config) (keywords : Keywords Schema) (shape : RecordShape)
      (field : Field), keywords.allOf ≠ [] →
      document.GivesRecord config (.inline keywords) shape → field ∈ shape.fields →
      (field.required = true ↔
        document.Lists (fun _ _ => True) (.inline keywords) field.key) := by
  intro alwaysHandedOn
  obtain ⟨shape, gives, _, field, isField, isLater, notRequired⟩ := givesRecord_laterField
  have lists : laterField.Lists (fun _ _ => True) (.inline requiredLater) "later" :=
    .member (by simp [Keywords.members, requiredLater]) trivial
      (.reference (show laterField.referenced? "#/components/schemas/Base" =
        some (.inline requiringBase) by rfl) (.own rfl (by simp [requiringBase])))
  have isRequired := (alwaysHandedOn laterField {} requiredLater shape field
    (by simp [requiredLater]) gives isField).mpr (isLater ▸ lists)
  cases notRequired.symm.trans isRequired

end Document

end ApiTypes

import ApiTypes.Proofs.Node
import ApiTypes.Proofs.SchemaNodes
import ApiTypes.Proofs.Table
import ApiTypes.Proofs.TypeLists

/-!
What stands inside a node. The enumerations in the node of a schema have what its schema objects list, and
its discriminators have resolved mappings, in which a value stands once.
-/

namespace ApiTypes

/-- What the parts of a kind meet, they meet if less is asked of them. -/
theorem NodeKind.PartsMeet.mono {values fewer : PrimitiveBase → List Data → Prop}
    {mapping less : Discriminator → Prop} {kind : NodeKind SchemaNode}
    (met : kind.PartsMeet values mapping)
    (listed : ∀ base literals, values base literals → fewer base literals)
    (leads : ∀ found, mapping found → less found) : kind.PartsMeet fewer less := by
  induction met with
  | primitive => exact .primitive
  | enum met => exact .enum (listed _ _ met)
  | array _ ih => exact .array ih
  | map _ ih => exact .map ih
  | object _ _ ih furtherIh => exact .object ih furtherIh
  | composed _ met ih => exact .composed ih fun found isFound => leads found (met found isFound)
  | reference => exact .reference
  | any => exact .any
  | null => exact .null

namespace PlainKeywords

/-- The values that a schema lists, without null. -/
def literals (keywords : PlainKeywords) : List Data :=
  (if keywords.values.isEmpty then keywords.constant.toList else keywords.values).filter
    fun value => !value.isNull

/-- The base type of the listed values: the first type decides, or else the first value. -/
def literalBase? (keywords : PlainKeywords) : Option PrimitiveBase :=
  (do Lowering.baseOfType? (← (← keywords.type).nonNull.head?)).or
    (keywords.literals.head?.bind Lowering.baseOfValue?)

/-- A schema lists values of a base type. -/
structure Enumerates (keywords : PlainKeywords) (base : PrimitiveBase) (values : List Data) :
    Prop where
  values_eq : values = keywords.literals
  nonempty : values ≠ []
  base_eq : keywords.literalBase? = some base

/-- Some schema object of which something holds lists values of a base type. -/
def Listed (holds : PlainKeywords → Prop) (base : PrimitiveBase) (values : List Data) : Prop :=
  ∃ keywords, holds keywords ∧ keywords.Enumerates base values

end PlainKeywords

open PlainKeywords (Listed)

namespace Lowering

open NodeKind (PartsMeet)

variable {values : PrimitiveBase → List Data → Prop} {mapping : Discriminator → Prop}
  {keywords : Keywords PlacedNode}

/-- A resolved mapping has a value once. -/
theorem nodup_keys_resolveMapping (discriminator : Discriminator) :
    (resolveMapping discriminator).mapping.keys.Nodup :=
  Table.nodup_keys_ofEntries _

/-- An enumeration has the values that are listed, with their base type. -/
theorem steady_enumeration_partsMeet
    (enumerates : ∀ base listed, keywords.Enumerates base listed → values base listed) :
    Steady (enumeration keywords) fun found => found.1.PartsMeet values mapping := by
  unfold enumeration
  refine .ite (fun _ => .pure .null) fun notEmpty => ?_
  have nonempty : keywords.literals ≠ [] := fun isEmpty => notEmpty (List.isEmpty_iff.mpr isEmpty)
  -- What decides on the kind is the base type of the values, by its definition.
  generalize isBase : Option.or _ _ = base
  cases base with
  | some base => exact .pure (.enum (enumerates _ _ ⟨rfl, nonempty, isBase⟩))
  | none => exact .after (.pure .any) _

variable (resolves : ∀ discriminator, mapping (resolveMapping discriminator))
  (steady : keywords.Each PlacedNode.IsSteady)
  (each : keywords.Each fun placed => placed.node.kind.PartsMeet values mapping)

include each

/-- The parts of an object are those in its properties. -/
theorem partsMeet_objectKind : (objectKind keywords).PartsMeet values mapping := by
  have further : ∀ value ∈ additionalNode keywords, value.kind.PartsMeet values mapping := by
    unfold additionalNode
    split
    · rename_i value isValue
      simpa using each.additional value isValue
    · exact fun _ isAny => Option.mem_some.mp isAny ▸ .any
    · simp
    · simp
  unfold objectKind
  split
  · -- Without listed properties the object is a map, or nothing stands inside it.
    split
    · rename_i value isValue
      exact .map (further value isValue)
    · exact .object (by simp) (by simp)
  · exact .object (List.forall_mem_map.mpr each.properties) further

/-- The parts beside an intersection are those in its properties. -/
theorem partsMeet_siblingNodes : ∀ node ∈ siblingNodes keywords,
    node.kind.PartsMeet values mapping := by
  unfold siblingNodes
  dsimp only
  split
  · simp
  · refine List.forall_mem_singleton.mpr ?_
    split
    · exact partsMeet_objectKind each
    · exact .any

include steady

/-- The parts of an array are those in its items. -/
theorem steady_array_partsMeet : Steady (array keywords) (PartsMeet values mapping) := by
  unfold array
  cases isItems : keywords.items with
  | none => exact .pure (.array .any)
  | some items =>
    exact ⟨_, .array (each.items items isItems), fun _ => (steady.items items isItems _).map _⟩

/-- The parts in the kind for a single type are those in what stands inside. -/
theorem steady_single_partsMeet (type : SchemaType) :
    Steady (single type keywords) (PartsMeet values mapping) := by
  unfold single
  cases type with
  | array => exact steady_array_partsMeet steady each
  | object => exact ⟨_, partsMeet_objectKind each, gives_object steady⟩
  | string | integer | number | boolean => exact .pure .primitive
  | null => exact .pure .null

/-- The parts of a choice between types are those in its members. -/
theorem steady_multiType_partsMeet (types : List SchemaType) (version : SpecVersion) :
    Steady (fun path => multiType types keywords version path) (PartsMeet values mapping) := by
  choose kindOf met isKind using steady_single_partsMeet steady each
  refine ⟨_, .composed ?_ (by simp), gives_multiType types (fun type _ => isKind type) version⟩
  exact List.forall_mem_map.mpr fun type _ => met type

include resolves

omit steady each in
/-- The parts of a choice are those in its members, and its discriminator. -/
theorem steady_union_partsMeet (listed : ∀ member ∈ choices keywords, member.IsSteady)
    (met : ∀ member ∈ choices keywords, member.node.kind.PartsMeet values mapping) :
    Steady (union keywords) (PartsMeet values mapping) := by
  refine (steady_union listed).mono ?_
  rintro _ ⟨kind, _, rfl⟩
  exact .composed (List.forall_mem_map.mpr met) (Option.forall_mem_map.mpr fun found _ => resolves found)

/-- The parts of an intersection are those in its members and in what stands beside them. -/
theorem steady_intersection_partsMeet :
    Steady (intersection keywords) (PartsMeet values mapping) := by
  -- A choice beside the members is lowered without the properties, which stand in a member of their own.
  have chosen : Steady (union { keywords with properties := {} }) (PartsMeet values mapping) :=
    steady_union_partsMeet resolves (forall_mem_choices steady.oneOf steady.anyOf)
      (forall_mem_choices each.oneOf each.anyOf)
  have beside : Steady (siblingUnion keywords) fun nodes => ∀ node ∈ nodes,
      node.kind.PartsMeet values mapping :=
    .ite (fun _ => .pure (by simp)) fun _ => chosen.map fun _ met _ isNode =>
      List.mem_singleton.mp isNode ▸ met
  obtain ⟨choice, met, isChoice⟩ := beside
  refine ⟨.composed .allOf (keywords.allOf.map PlacedNode.node ++ siblingNodes keywords ++ choice) none,
    .composed ?_ (by simp), fun path => ?_⟩
  · have listed : ∀ node ∈ keywords.allOf.map PlacedNode.node, node.kind.PartsMeet values mapping :=
      List.forall_mem_map.mpr each.allOf
    exact List.forall_mem_append.mpr
      ⟨List.forall_mem_append.mpr ⟨listed, partsMeet_siblingNodes each⟩, met⟩
  · exact (gives_members steady.allOf _ 0).bind
      ((gives_siblingMember steady path).bind ((isChoice path).map _))

/-- The parts of the kind of a schema object are what it lists and what its parts have. -/
theorem steady_kind_partsMeet
    (enumerates : ∀ base listed, keywords.Enumerates base listed → values base listed)
    (version : SpecVersion) :
    Steady (kind keywords version) fun found => found.1.PartsMeet values mapping := by
  have unlisted {kind : String → Reporting (NodeKind SchemaNode)}
      (met : Steady kind (PartsMeet values mapping)) :
      Steady (fun path => do return (← kind path, false)) fun found =>
        found.1.PartsMeet values mapping :=
    met.map fun _ => id
  have object : Steady (object keywords) (PartsMeet values mapping) :=
    ⟨_, partsMeet_objectKind each, gives_object steady⟩
  -- Only the branch of `enum` and `const` gives an enumeration that the keywords list themselves.
  unfold kind
  refine .ite (fun _ => unlisted (steady_intersection_partsMeet resolves steady each)) fun _ => ?_
  refine .ite (fun _ => unlisted (steady_union_partsMeet resolves
    (forall_mem_choices steady.oneOf steady.anyOf) (forall_mem_choices each.oneOf each.anyOf)))
    fun _ => ?_
  refine .ite (fun _ => steady_enumeration_partsMeet enumerates) fun _ => ?_
  cases keywords.type.map TypeKeyword.nonNull with
  | none =>
    exact .ite (fun _ => unlisted object) fun _ =>
      .ite (fun _ => unlisted (steady_array_partsMeet steady each)) fun _ => .pure .any
  | some types =>
    match types with
    | [] => exact .pure .null
    | [type] => exact unlisted (steady_single_partsMeet steady each type)
    | first :: second :: rest => exact unlisted (steady_multiType_partsMeet steady each _ version)

/-- So are the parts of the node of a schema object. -/
theorem partsMeet_node
    (enumerates : ∀ base listed, keywords.Enumerates base listed → values base listed)
    (version : SpecVersion) :
    (node version keywords : PlacedNode).node.kind.PartsMeet values mapping := by
  have lowered : Steady (node version keywords) fun node => node.kind.PartsMeet values mapping :=
    (steady_kind_partsMeet resolves steady each enumerates version).bind fun _ met =>
      (steady_normalize _ _ version).map fun _ _ => met
  exact lowered.node.2

end Lowering

namespace Schema

/-- Something holds of a schema object and of all schema objects inside it. -/
def Everywhere (holds : PlainKeywords → Prop) (schema : Schema) : Prop :=
  schema.fold (fun _ => True) fun keywords => holds keywords.toPlainKeywords ∧ keywords.Each id

/-- It holds everywhere in a schema object if it does of that and everywhere inside. -/
theorem everywhere_inline_iff {holds : PlainKeywords → Prop} (keywords : Keywords Schema) :
    (inline keywords).Everywhere holds ↔
      holds keywords.toPlainKeywords ∧ keywords.Each (Everywhere holds) := by
  rw [Everywhere, fold_inline, Keywords.each_map_iff]
  rfl

/-- What holds of all schema objects holds everywhere. -/
theorem everywhere_of_forall {holds : PlainKeywords → Prop} (always : ∀ keywords, holds keywords)
    (schema : Schema) : schema.Everywhere holds := by
  induction schema using inductionOn with
  | ref path => trivial
  | inline keywords ih => exact (everywhere_inline_iff keywords).mpr ⟨always _, ih⟩

/--
The enumerations in the node of a schema have what its schema objects list, and its discriminators what
resolved mappings have.
-/
theorem Everywhere.partsMeet {holds : PlainKeywords → Prop} {mapping : Discriminator → Prop}
    {schema : Schema} (everywhere : schema.Everywhere holds)
    (resolves : ∀ discriminator, mapping (Lowering.resolveMapping discriminator))
    (version : SpecVersion) : (schema.node version).kind.PartsMeet (Listed holds) mapping := by
  -- The induction is on the schema, so that what the parts list is known before the whole is lowered.
  induction schema using inductionOn with
  | ref path => exact .reference
  | inline keywords ih =>
    have ⟨outside, inside⟩ := (everywhere_inline_iff keywords).mp everywhere
    rw [node_inline]
    exact Lowering.partsMeet_node resolves (each_isSteady version keywords)
      ((Keywords.each_map_iff _ _).mpr (ih.mp inside))
      (fun base listed enumerates => ⟨_, outside, enumerates⟩) version

end Schema

end ApiTypes

import ApiTypes.Proofs.Satisfaction.Merging
import ApiTypes.Proofs.Synthesis.Reachability

/-!
What comes of a node is satisfied by every value of the node. The induction is on how the value satisfies
the node, so that it also passes through references; a reference leads to a declaration that has come
of the node of its target.
-/

namespace ApiTypes

/-- What values are judged by: the nodes of a context, and the declarations that have come of them. -/
structure Judgement where
  context : Context
  registry : Registry
  dialect : Dialect
  /-- What the whole numbers among the divisors divide. -/
  limit : Nat

namespace Judgement

variable (judgement : Judgement)

/-- What names stand for. A name without a declaration says nothing. -/
def shapes (name : String) : Option Shape :=
  some ((judgement.registry.get? name).elim (.alias .any) Declaration.shape)

/-- A workspace declares nothing but what is declared in the end. -/
def Keeps (workspace : Workspace) : Prop :=
  ∀ name declaration, workspace.registry.get? name = some declaration →
    judgement.registry.get? name = some declaration

/-- The declarations have come of the nodes, and the divisors of nodes have exact multiples. -/
structure IsFair : Prop where
  positive : 0 < judgement.limit
  small : judgement.limit ≤ 2 ^ 53
  fits : ∀ node, judgement.context.model.Contains node →
    node.traits.constraints.Fits judgement.limit
  /-- Only the node that holds null alone admits null. -/
  strict : ∀ node, judgement.context.model.Contains node → node.traits.nullable = true →
    node.kind.isNull = true
  declared : ∀ schema name declaration, judgement.context.emitted? schema = some name →
    judgement.registry.get? name = some declaration →
    ∃ node expanding first last, judgement.context.model.node? schema = some node ∧
      Consistent judgement.context first ∧
      Yields judgement.context expanding first (.declare node 0) (.shape declaration.shape) last ∧
      judgement.Keeps last

/-- A value satisfies a contribution, which names no schema but an atomic one. -/
def SuitsInput (value : Json) (shape : MemberShape) : Prop :=
  judgement.dialect.SuitsMember judgement.shapes judgement.limit value shape ∧
    ∀ type, shape = .scalar type → type.nullable = false → ∀ schema,
      judgement.context.schemaOf? type = some schema → judgement.context.IsAtomic schema

/-- A value satisfies whatever an intersection takes from a component schema. -/
def Expands (value : Json) (schema : String) : Prop :=
  ∀ ⦃expanding first last shape⦄, Consistent judgement.context first →
    Yields judgement.context expanding first (.schema schema) (.member shape) last →
    judgement.Keeps last → judgement.SuitsInput value shape

/-- A value satisfies the declaration of a component schema, and what an intersection takes from it. -/
def Grants (value : Json) (schema : String) : Prop :=
  (∀ name, judgement.context.emitted? schema = some name →
    judgement.dialect.Accepts judgement.shapes (.named name) value) ∧
  judgement.Expands value schema

/-- A value satisfies every shape that a node is declared with. -/
def SuitsDeclared (node : SchemaNode) (value : Json) : Prop :=
  ∀ ⦃expanding first last depth shape⦄, Consistent judgement.context first →
    Yields judgement.context expanding first (.declare node depth) (.shape shape) last →
    judgement.Keeps last → judgement.dialect.SuitsShape judgement.shapes judgement.limit value shape

/-- A value satisfies every type that a node is used as. -/
def SuitsUsed (node : SchemaNode) (value : Json) : Prop :=
  ∀ ⦃expanding first last depth type⦄, Consistent judgement.context first →
    Yields judgement.context expanding first (.expression node depth) (.type type) last →
    judgement.Keeps last → judgement.dialect.Suits judgement.shapes judgement.limit type value

/-- A value satisfies whatever a node contributes to an intersection in which it stands. -/
def SuitsContributed (node : SchemaNode) (value : Json) : Prop :=
  ∀ ⦃expanding first last depth shape⦄, Consistent judgement.context first →
    Yields judgement.context expanding first (.contribute node depth) (.member shape) last →
    judgement.Keeps last → judgement.SuitsInput value shape

/-- A value of a component schema satisfies what its node contributes to an intersection. -/
def SuitsExpanded (node : SchemaNode) (value : Json) : Prop :=
  ∀ ⦃expanding first last schema name shape⦄, Consistent judgement.context first →
    judgement.context.model.node? schema = some node →
    judgement.context.emitted? schema = some name →
    judgement.dialect.Accepts judgement.shapes (.named name) value →
    Yields judgement.context expanding first (.expand node name) (.member shape) last →
    judgement.Keeps last → judgement.SuitsInput value shape

/-- A value satisfies whatever comes of a node. -/
structure Preserves (node : SchemaNode) (value : Json) : Prop where
  declared : judgement.SuitsDeclared node value
  used : judgement.SuitsUsed node value
  contributed : judgement.SuitsContributed node value
  expanded : judgement.SuitsExpanded node value
  grants : ∀ target, node.kind.referenceTarget? = some target → judgement.Grants value target
  required : ∀ label, ∀ input ∈ Surroundings.requiredMembers node label,
    judgement.dialect.SuitsMember judgement.shapes judgement.limit value input.shape

variable {judgement} {expanding : List String} {first middle last : Workspace} {node : SchemaNode}
  {value : Json}

/-- What was declared before is kept if all is. -/
theorem Keeps.before (keeps : judgement.Keeps last) (grows : Grows first last) :
    judgement.Keeps first := fun name declaration stands =>
  keeps name declaration (grows.get?_eq stands)

/-- A name stands for what is declared for it. -/
theorem Keeps.shapes_eq (keeps : judgement.Keeps last) (name : String) (declaration : Declaration)
    (stands : last.registry.get? name = some declaration) :
    judgement.shapes name = some declaration.shape := by
  rw [shapes, keeps name declaration stands]
  rfl

/-- A value that satisfies a shape satisfies the name that the shape gets. -/
theorem accepts_of_registers {shape : Shape} {name : String}
    (registers : first.Registers shape name last) (keeps : judgement.Keeps last)
    (accepts : judgement.dialect.AcceptsShape judgement.shapes shape value) :
    judgement.dialect.Accepts judgement.shapes (.named name) value := by
  -- The name is that of an equal declaration that was there before, or of a new one.
  rw [Dialect.accepts_named_iff]
  obtain ⟨candidate, doc, deprecated, path, isRegistered, _⟩ := registers
  rcases first.registry.register_cases candidate shape doc deprecated (.inline path) with
    ⟨standing, other, stands, same, isSame⟩ | ⟨other, free, isNew⟩
  · obtain ⟨rfl, isLast⟩ := Prod.mk.inj (isSame.symm.trans isRegistered)
    exact ⟨_, keeps.shapes_eq _ _ (isLast ▸ stands), Dialect.acceptsShape_of_beq same accepts⟩
  · rw [isNew] at isRegistered
    obtain ⟨rfl, isLast⟩ := Prod.mk.inj isRegistered
    have stands := keeps.shapes_eq other
      { name := other, shape, doc, deprecated, origin := .inline path }
      (by rw [← isLast, Registry.get?_declare, if_pos rfl])
    exact ⟨_, stands, accepts⟩

/-- What is declared for a schema is satisfied by every value that satisfies what its node gives. -/
theorem IsFair.accepts (fair : judgement.IsFair) {schema name : String}
    (found : judgement.context.model.node? schema = some node)
    (emitted : judgement.context.emitted? schema = some name)
    (suits : judgement.SuitsDeclared node value) :
    judgement.dialect.Accepts judgement.shapes (.named name) value := by
  -- A schema that has no declaration in the end is a name that says nothing.
  rw [Dialect.accepts_named_iff]
  cases stands : judgement.registry.get? name with
  | none => exact ⟨.alias .any, by rw [shapes, stands]; rfl, .any⟩
  | some declaration =>
    obtain ⟨other, expanding, first, last, isNode, consistent, yields, keeps⟩ :=
      fair.declared schema name declaration emitted stands
    cases found.symm.trans isNode
    exact ⟨declaration.shape, by rw [shapes, stands]; rfl,
      (suits consistent yields keeps).acceptsShape⟩

/-- A reference grants what its target preserves. -/
theorem IsFair.grants (fair : judgement.IsFair) {schema : String}
    (found : judgement.context.model.node? schema = some node)
    (preserves : judgement.Preserves node value) : judgement.Grants value schema := by
  have accepts {name : String} (emitted : judgement.context.emitted? schema = some name) :=
    fair.accepts found emitted preserves.declared
  refine ⟨fun name emitted => accepts emitted, fun expanding first last shape consistent yields keeps => ?_⟩
  cases yields with
  | schemaChoice => exact ⟨trivial, nofun⟩
  | schema _ isNode _ emitted inside =>
    cases found.symm.trans isNode
    exact preserves.expanded consistent found emitted (accepts emitted) inside keeps

/-- A node that is used as it stands is declared as another name of its type. -/
theorem suitsDeclared_of_used (isPlain : node.isDeclared = false)
    (used : judgement.SuitsUsed node value) : judgement.SuitsDeclared node value := by
  intro expanding first last depth shape consistent yields keeps
  cases yields with
  | declarePlain _ notes inside => exact used (notes.advances consistent).1 inside keeps
  | declareEnum | declareIntersection | declareDiscriminated => cases isPlain
  | declareRecord isDeclared => cases isPlain.symm.trans isDeclared
  | declareChoice => cases isPlain

/-- A type that admits null where another one does is satisfied like that. -/
theorem suits_withNullable {type : TypeExpr} {nullable : Bool}
    (suits : judgement.dialect.Suits judgement.shapes judgement.limit type value) :
    judgement.dialect.Suits judgement.shapes judgement.limit
      (type.withNullable (type.nullable || nullable)) value :=
  ⟨suits.1.withNullable fun isNullable => by simp [isNullable], suits.2⟩

/-- A declared node is used by the name of its declaration, or as the type that has another name there. -/
theorem suitsUsed_of_declared (isDeclared : node.isDeclared = true)
    (declared : judgement.SuitsDeclared node value) : judgement.SuitsUsed node value := by
  -- The name of a declaration does not admit null by itself; what is promoted may.
  intro expanding first last depth type consistent yields keeps
  cases yields with
  | constant isConstant => cases isDeclared.symm.trans (SchemaNode.isDeclared_of_constant? isConstant)
  | array | map | use => cases isDeclared
  | promoteAlias _ declares =>
    exact suits_withNullable (declared consistent declares keeps)
  | promote _ declares _ registers =>
    have ⟨between, _⟩ := declares.advances consistent
    have keepsMiddle := keeps.before (registers.advances between).2
    have accepts := accepts_of_registers registers keeps
      (declared consistent declares keepsMiddle).acceptsShape
    exact ⟨accepts.withNullable nofun, Constraints.fits_empty _⟩

/-- A node that contributes its type contributes one that its values satisfy. -/
theorem suitsContributed_of_used (isType : node.contributesType = true)
    (used : judgement.SuitsUsed node value) : judgement.SuitsContributed node value := by
  intro expanding first last depth shape consistent yields keeps
  cases yields with
  | contributeType _ inside =>
    refine ⟨used consistent inside keeps, fun type isScalar _ schema named => ?_⟩
    cases isScalar
    exact inside.isAtomic_of_contributesType consistent isType named
  | contributeRestriction isEmpty => simp [SchemaNode.contributesType, isEmpty] at isType
  | contributeMap | contributeRecord | contributeIntersection | contributeChoice => cases isType

/-- The contribution of an atomic schema is its name. -/
theorem suitsInput_named {schema name : String} (isAtomic : judgement.context.IsAtomic schema)
    (emitted : judgement.context.emitted? schema = some name)
    (accepts : judgement.dialect.Accepts judgement.shapes (.named name) value) :
    judgement.SuitsInput value (.scalar (.named name)) := by
  refine ⟨⟨accepts, Constraints.fits_empty _⟩, fun type isScalar _ other named => ?_⟩
  cases isScalar
  cases named.symm.trans (judgement.context.schemaOf?_named emitted false)
  exact isAtomic

/-- An atomic node contributes its name where it is referred to. -/
theorem suitsExpanded_of_atomic (isAtomic : node.isAtomic = true) :
    judgement.SuitsExpanded node value := by
  intro expanding first last schema name shape consistent found emitted accepts yields keeps
  cases yields with
  | expandAtomic => exact suitsInput_named ⟨node, found, isAtomic⟩ emitted accepts
  | expandRestriction isEmpty => simp [SchemaNode.isAtomic, isEmpty] at isAtomic
  | expandRecord | expandReference | expandIntersection => cases isAtomic

/-- A node that is always used by its own type preserves values that satisfy that. -/
theorem preserves_of_used (isPlain : node.isDeclared = false) (isType : node.contributesType = true)
    (isAtomic : node.isAtomic = true) (used : judgement.SuitsUsed node value) :
    judgement.Preserves node value where
  declared := suitsDeclared_of_used isPlain used
  used := used
  contributed := suitsContributed_of_used isType used
  expanded := suitsExpanded_of_atomic isAtomic
  grants target isTarget := by
    obtain ⟨kind, traits⟩ := node
    cases kind <;> cases isTarget
    cases isAtomic
  required label input isInput := by
    obtain ⟨kind, traits⟩ := node
    cases kind <;> first | cases isInput | cases isAtomic

/-- A node without nodes inside it is used as its type. -/
theorem suitsUsed_of_constant {type : TypeExpr} (isConstant : node.constant? = some type)
    (suits : judgement.dialect.Suits judgement.shapes judgement.limit type value) :
    judgement.SuitsUsed node value := by
  have isPlain := SchemaNode.isDeclared_of_constant? isConstant
  intro expanding first last depth found consistent yields keeps
  cases yields with
  | constant isFound =>
    cases isConstant.symm.trans isFound
    exact suits
  | array | map | use => cases isConstant
  | promoteAlias isDeclared | promote isDeclared => cases isPlain.symm.trans isDeclared

/-- A primitive value satisfies whatever comes of its node. -/
theorem preserves_primitive {base : PrimitiveBase} {format : Option String} {traits : NodeTraits}
    (isPrimitive : judgement.dialect.IsPrimitive base format value)
    (within : judgement.dialect.Admits traits.constraints value)
    (fits : traits.constraints.Fits judgement.limit) :
    judgement.Preserves ⟨.primitive base format, traits⟩ value :=
  preserves_of_used rfl rfl rfl (suitsUsed_of_constant rfl ⟨.primitive isPrimitive within, fits⟩)

/-- Null satisfies whatever comes of the node that holds it alone. -/
theorem preserves_null {traits : NodeTraits} : judgement.Preserves ⟨.null, traits⟩ .null :=
  preserves_of_used rfl rfl rfl (suitsUsed_of_constant rfl ⟨.onlyNull, Constraints.fits_empty _⟩)

/-- A list satisfies whatever comes of an array if its items do so of the node of the items. -/
theorem preserves_array {traits : NodeTraits} {items : List Json}
    (within : judgement.dialect.Admits traits.constraints (.list items))
    (fits : traits.constraints.Fits judgement.limit)
    (each : ∀ item ∈ items, judgement.Preserves node item) :
    judgement.Preserves ⟨.array node, traits⟩ (.list items) := by
  refine preserves_of_used rfl rfl rfl ?_
  intro expanding first last depth type consistent yields keeps
  cases yields with
  | constant isConstant => cases isConstant
  | array _ inside =>
    exact ⟨.array within fun item isItem => ((each item isItem).used consistent inside keeps).1, fits⟩
  | promoteAlias isDeclared | promote isDeclared => cases isDeclared

/-- Members satisfy whatever comes of a map if their values do so of its node. -/
theorem preserves_map {traits : NodeTraits} {members : List (String × Json)}
    (each : ∀ name value, (name, value) ∈ members → judgement.Preserves node value) :
    judgement.Preserves ⟨.map node, traits⟩ (.object members) := by
  -- In an intersection a map is a record of further properties only.
  have used : judgement.SuitsUsed ⟨.map node, traits⟩ (.object members) := by
    intro expanding first last depth type consistent yields keeps
    cases yields with
    | constant isConstant => cases isConstant
    | map inside =>
      exact ⟨.map fun name value isMember =>
        ((each name value isMember).used consistent inside keeps).1, Constraints.fits_empty _⟩
    | promoteAlias isDeclared | promote isDeclared => cases isDeclared
  refine ⟨suitsDeclared_of_used rfl used, used, ?_, suitsExpanded_of_atomic rfl, nofun,
    fun label input isInput => by cases isInput⟩
  intro expanding first last depth shape consistent yields keeps
  cases yields with
  | contributeType isType => cases isType
  | contributeMap inside =>
    refine ⟨⟨members, rfl, by simp, fun type isType name value isMember _ => ?_⟩, nofun⟩
    cases isType
    exact ((each name value isMember).used consistent inside keeps).1

/-- Values that are listed satisfy whatever comes of an enumeration. -/
theorem preserves_enum {base : PrimitiveBase} {values : List Data} {traits : NodeTraits} {data : Data}
    (isListed : data ∈ values) (stands : data.json? = some value) :
    judgement.Preserves ⟨.enum base values, traits⟩ value := by
  have declared : judgement.SuitsDeclared ⟨.enum base values, traits⟩ value := by
    intro expanding first last depth shape consistent yields keeps
    cases yields with
    | declarePlain isPlain => cases isPlain
    | declareEnum => exact ⟨data, isListed, stands⟩
  have used := suitsUsed_of_declared rfl declared
  exact ⟨declared, used, suitsContributed_of_used rfl used, suitsExpanded_of_atomic rfl, nofun,
    fun label input isInput => by cases isInput⟩

/-- A value satisfies whatever comes of a node without a type if it has the names that this lists. -/
theorem preserves_any {traits : NodeTraits}
    (required : ∀ members, value = .object members → ∀ name ∈ traits.required,
      ∃ value, (name, value) ∈ members) : judgement.Preserves ⟨.any, traits⟩ value := by
  -- Such a node restricts an intersection by the names that it requires, and by nothing else.
  have used : judgement.SuitsUsed ⟨.any, traits⟩ value :=
    suitsUsed_of_constant rfl ⟨.any, Constraints.fits_empty _⟩
  have restriction : judgement.SuitsInput value (SchemaNode.restriction traits) := by
    unfold SchemaNode.restriction
    split
    · exact ⟨trivial, nofun⟩
    · exact ⟨required, nofun⟩
  refine ⟨suitsDeclared_of_used rfl used, used, ?_, ?_, nofun, fun label input isInput => by
    cases isInput⟩
  · intro expanding first last depth shape consistent yields keeps
    cases yields with
    | contributeType isType inside =>
      exact suitsContributed_of_used isType used consistent (.contributeType isType inside) keeps
    | contributeRestriction => exact restriction
  · intro expanding first last schema name shape consistent found emitted accepts yields keeps
    cases yields with
    | expandAtomic isAtomic => exact suitsInput_named ⟨_, found, isAtomic⟩ emitted accepts
    | expandRestriction => exact restriction

/-- A value satisfies the type of a reference that grants it. -/
theorem suits_reference {target : String} {type : TypeExpr} (grants : judgement.Grants value target)
    (looked : Yields judgement.context expanding first (.reference target) (.type type) last) :
    judgement.dialect.Suits judgement.shapes judgement.limit type value := by
  cases looked with
  | reference _ emitted =>
    exact ⟨(grants.1 _ emitted).withNullable nofun, Constraints.fits_empty _⟩

/-- A value satisfies whatever comes of a reference that grants it. -/
theorem preserves_reference {target : String} {traits : NodeTraits}
    (grants : judgement.Grants value target) : judgement.Preserves ⟨.reference target, traits⟩ value := by
  have used : judgement.SuitsUsed ⟨.reference target, traits⟩ value := by
    intro expanding first last depth type consistent yields keeps
    -- A reference is neither a constant nor declared: it is used by name.
    cases yields with
    | constant isConstant => cases isConstant
    | use looked => exact suits_withNullable (suits_reference grants looked)
    | promoteAlias isDeclared | promote isDeclared => cases isDeclared
  refine ⟨suitsDeclared_of_used rfl used, used, ?_, ?_, ?_, fun label input isInput => by cases isInput⟩
  · intro expanding first last depth shape consistent yields keeps
    cases yields with
    | contributeType isType => cases isType
  · intro expanding first last schema name shape consistent found emitted accepts yields keeps
    cases yields with
    | expandAtomic isAtomic => cases isAtomic
    | expandReference looked inside =>
      exact grants.2 (looked.advances consistent).1 inside keeps
  · intro other isTarget
    cases isTarget
    exact grants

/-- Members satisfy the fields of properties if their values satisfy whatever comes of these. -/
theorem suits_fields {members : List (String × Json)} {properties : List (Property SchemaNode)}
    {fields : List Field}
    (yields : Yields judgement.context expanding first (.fields properties) (.fields fields) last)
    (consistent : Consistent judgement.context first) (keeps : judgement.Keeps last)
    (each : ∀ property ∈ properties, ∀ value, (property.name, value) ∈ members →
      judgement.Preserves property.schema value)
    (required : ∀ property ∈ properties, property.required = true →
      ∃ value, (property.name, value) ∈ members) :
    (∀ field ∈ fields,
      judgement.dialect.SuitsField judgement.shapes judgement.limit members field) ∧
      ∀ property ∈ properties, ∃ field ∈ fields, field.key = property.name := by
  -- Fields are made one after the other; each is judged in the workspace that it leaves behind.
  induction properties generalizing first fields with
  | nil =>
    cases yields
    simp
  | cons property rest ih =>
    cases yields with
    | fieldsCons inside later =>
      have ⟨between, _⟩ := inside.advances consistent
      have keepsMiddle := keeps.before (later.advances between).2
      obtain ⟨fields, keys⟩ := ih later between (List.forall_mem_cons.mp each).2
        (List.forall_mem_cons.mp required).2
      have field : judgement.dialect.SuitsField judgement.shapes judgement.limit members
          (property.field _) :=
        ⟨fun value isMember => (each property List.mem_cons_self value isMember).used consistent inside
          keepsMiddle, required property List.mem_cons_self⟩
      refine ⟨List.forall_mem_cons.mpr ⟨field, fields⟩, List.forall_mem_cons.mpr
        ⟨⟨_, List.mem_cons_self, rfl⟩, fun other isOther => ?_⟩⟩
      obtain ⟨found, isFound, sameKey⟩ := keys other isOther
      exact ⟨found, List.mem_cons_of_mem _ isFound, sameKey⟩

/-- Members satisfy the record of an object if their values satisfy whatever comes of its nodes. -/
theorem suits_record {members : List (String × Json)} {properties : List (Property SchemaNode)}
    {additional : Option SchemaNode} {shape : RecordShape}
    (yields : Yields judgement.context expanding first (.record properties additional)
      (.record shape) last)
    (consistent : Consistent judgement.context first) (keeps : judgement.Keeps last)
    (each : ∀ property ∈ properties, ∀ value, (property.name, value) ∈ members →
      judgement.Preserves property.schema value)
    (required : ∀ property ∈ properties, property.required = true →
      ∃ value, (property.name, value) ∈ members)
    (further : ∀ node ∈ additional, ∀ name value, (name, value) ∈ members →
      (∀ property ∈ properties, property.name ≠ name) → judgement.Preserves node value) :
    judgement.dialect.SuitsRecord judgement.shapes judgement.limit members shape := by
  -- What is no property of the record is no field of it, as every property has its field.
  cases yields with
  | recordClosed inside =>
    exact ⟨(suits_fields inside consistent keeps each required).1, by simp⟩
  | recordOpen inside later =>
    have ⟨between, _⟩ := inside.advances consistent
    obtain ⟨fields, keys⟩ := suits_fields inside consistent
      (keeps.before (later.advances between).2) each required
    refine ⟨fields, fun type isType name value isMember isOther => ?_⟩
    cases isType
    refine ((further _ rfl name value isMember fun property isListed isName => ?_).used between later
      keeps).1
    obtain ⟨field, isField, sameKey⟩ := keys property isListed
    exact isOther field isField (sameKey.trans isName)

/-- Members satisfy whatever comes of an object if their values satisfy whatever comes of its nodes. -/
theorem preserves_object {members : List (String × Json)} {properties : List (Property SchemaNode)}
    {additional : Option SchemaNode} {traits : NodeTraits}
    (each : ∀ property ∈ properties, ∀ value, (property.name, value) ∈ members →
      judgement.Preserves property.schema value)
    (required : ∀ property ∈ properties, property.required = true →
      ∃ value, (property.name, value) ∈ members)
    (undeclared : ∀ name ∈ traits.required, ∃ value, (name, value) ∈ members)
    (further : ∀ node ∈ additional, ∀ name value, (name, value) ∈ members →
      (∀ property ∈ properties, property.name ≠ name) → judgement.Preserves node value) :
    judgement.Preserves ⟨.object properties additional, traits⟩ (.object members) := by
  have record {expanding first last shape}
      (yields : Yields judgement.context expanding first (.record properties additional)
        (.record shape) last)
      (consistent : Consistent judgement.context first) (keeps : judgement.Keeps last) :
      judgement.SuitsInput (.object members) (.record shape) :=
    ⟨⟨members, rfl, suits_record yields consistent keeps each required further⟩,
      fun _ same => by cases same⟩
  have uses : judgement.SuitsDeclared ⟨.object properties additional, traits⟩ (.object members) ∧
      judgement.SuitsUsed ⟨.object properties additional, traits⟩ (.object members) := by
    by_cases isDeclared : SchemaNode.isDeclared ⟨.object properties additional, traits⟩ = true
    · have declared : judgement.SuitsDeclared ⟨.object properties additional, traits⟩
          (.object members) := by
        intro expanding first last depth shape consistent yields keeps
        cases yields with
        | declarePlain isPlain => cases isDeclared.symm.trans isPlain
        | declareRecord _ notes inside =>
          exact (record inside (notes.advances consistent).1 keeps).1
      exact ⟨declared, suitsUsed_of_declared isDeclared declared⟩
    · -- An object without any properties is a map of untyped values.
      have isEmpty : properties = [] ∧ additional = none := by
        simpa [SchemaNode.isDeclared] using isDeclared
      obtain ⟨rfl, rfl⟩ := isEmpty
      have used : judgement.SuitsUsed ⟨.object [] none, traits⟩ (.object members) :=
        suitsUsed_of_constant rfl ⟨.map fun _ _ _ => .any, Constraints.fits_empty _⟩
      exact ⟨suitsDeclared_of_used rfl used, used⟩
  refine ⟨uses.1, uses.2, ?_, ?_, by rintro _ ⟨⟩, fun label input isInput => ?_⟩
  · intro expanding first last depth shape consistent yields keeps
    cases yields with
    | contributeType isType => cases isType
    | contributeRecord inside => exact record inside consistent keeps
  · intro expanding first last schema name shape consistent found emitted accepts yields keeps
    cases yields with
    | expandAtomic isAtomic => cases isAtomic
    | expandRecord inside => exact record inside consistent keeps
  · simp only [Surroundings.requiredMembers] at isInput
    split at isInput
    · cases isInput
    · cases List.mem_singleton.mp isInput
      intro others same
      cases same
      exact undeclared

/-- A value that satisfies a case satisfies the name of the case, or it is null and null is admitted. -/
theorem suits_cases {members : List SchemaNode} {depth : Nat} {names : List String} {nullable : Bool}
    (yields : Yields judgement.context expanding first (.cases members depth)
      (.names names nullable) last)
    (consistent : Consistent judgement.context first) (keeps : judgement.Keeps last)
    {member : SchemaNode} (isMember : member ∈ members)
    (isNull : member.kind.isNull = true → value = .null)
    (preserves : judgement.Preserves member value) :
    nullable = true ∧ value = .null ∨
      ∃ name ∈ names, judgement.dialect.Accepts judgement.shapes (.named name) value := by
  -- Cases that hold null alone have no name but let the choice admit null, as do cases that admit null
  -- besides; the name that these get is one without null.
  induction members generalizing first names nullable with
  | nil => cases isMember
  | cons node rest ih =>
    cases yields with
    | casesNull isNullNode later =>
      rcases List.mem_cons.mp isMember with rfl | isLater
      · exact .inl ⟨rfl, isNull isNullNode⟩
      · exact (ih later consistent isLater).imp_left fun ⟨_, same⟩ => ⟨rfl, same⟩
    | casesCons notNull inside named later =>
      have ⟨between, _⟩ := inside.advances consistent
      have ⟨after, grows⟩ := named.advances between
      have keepsNamed := keeps.before (later.advances after).2
      rcases List.mem_cons.mp isMember with rfl | isLater
      · have accepts := (preserves.used consistent inside (keepsNamed.before grows)).1
        cases named with
        | named isName =>
          rcases accepts.of_name? isName with ⟨isNullable, same⟩ | accepts
          · exact .inl ⟨by simp [isNullable], same⟩
          · exact .inr ⟨_, List.mem_cons_self, accepts⟩
        | declared _ registers =>
          rcases accepts.of_nullable with ⟨isNullable, same⟩ | accepts
          · exact .inl ⟨by simp [isNullable], same⟩
          · exact .inr ⟨_, List.mem_cons_self, accepts_of_registers registers keepsNamed accepts⟩
      · rcases ih later after isLater with ⟨isNullable, same⟩ | ⟨name, isName, accepts⟩
        · exact .inl ⟨by simp [isNullable], same⟩
        · exact .inr ⟨name, List.mem_cons_of_mem _ isName, accepts⟩

/-- A value that satisfies one of the names of a choice satisfies the choice. -/
theorem suits_unionOf {kind : CompositionKind} {names : List String} {nullable : Bool}
    {discriminator : Option Discriminator} {shape : Shape}
    (unites : unionOf kind names nullable discriminator = .ok shape)
    (suits : nullable = true ∧ value = .null ∨
      ∃ name ∈ names, judgement.dialect.Accepts judgement.shapes (.named name) value) :
    judgement.dialect.SuitsShape judgement.shapes judgement.limit value shape := by
  have distinct (name : String) := mem_distinctNames_iff names name
  unfold unionOf at unites
  -- A single name is the type itself; several are a union of the distinct ones.
  split at unites
  · cases unites
  · rename_i only isOnly
    cases unites
    refine ⟨?_, Constraints.fits_empty _⟩
    rcases suits with ⟨isNullable, rfl⟩ | ⟨name, isName, accepts⟩
    · exact .null isNullable
    · have same : name = only := by simpa [isOnly] using (distinct name).mpr isName
      subst same
      exact accepts.withNullable nofun
  · cases unites
    exact suits.imp_right fun ⟨name, isName, accepts⟩ => ⟨name, (distinct name).mpr isName, accepts⟩

/-- A value that satisfies a case satisfies whatever comes of the choice. -/
theorem preserves_choice {kind : CompositionKind} {members : List SchemaNode}
    {discriminator : Option Discriminator} {traits : NodeTraits} (isChoice : kind ≠ .allOf)
    {member : SchemaNode} (isMember : member ∈ members)
    (isNull : member.kind.isNull = true → value = .null)
    (preserves : judgement.Preserves member value) :
    judgement.Preserves ⟨.composed kind members discriminator, traits⟩ value := by
  -- Further cases may only add to what a choice admits.
  have more {flag nullable : Bool} {names : List String}
      (suits : nullable = true ∧ value = .null ∨
        ∃ name ∈ names, judgement.dialect.Accepts judgement.shapes (.named name) value) :
      (flag || nullable) = true ∧ value = .null ∨
        ∃ name ∈ names, judgement.dialect.Accepts judgement.shapes (.named name) value :=
    suits.imp_left fun ⟨isNullable, same⟩ => ⟨by simp [isNullable], same⟩
  have declared : judgement.SuitsDeclared ⟨.composed kind members discriminator, traits⟩ value := by
    intro expanding first last depth shape consistent yields keeps
    cases yields with
    -- Only the walks of choices are left, with a discriminator or without one.
    | declarePlain isPlain => cases isPlain
    | declareIntersection => exact absurd rfl isChoice
    | declareChoice _ notes inside unites =>
      exact suits_unionOf unites (more (suits_cases inside (notes.advances consistent).1 keeps isMember
        isNull preserves))
    | declareDiscriminated _ notes inside maps unites =>
      have ⟨begun, _⟩ := notes.advances consistent
      have ⟨between, _⟩ := inside.advances begun
      exact suits_unionOf unites (more (suits_cases inside begun
        (keeps.before (maps.advances between).2) isMember isNull preserves))
  -- As a member of an intersection a choice is refused, so nothing has to be shown there.
  refine ⟨declared, suitsUsed_of_declared rfl declared, ?_, ?_, nofun,
    fun label input isInput => by cases isInput⟩
  · intro expanding first last depth shape consistent yields keeps
    cases yields with
    | contributeType isType => cases isType
    | contributeIntersection => exact absurd rfl isChoice
    | contributeChoice => exact ⟨trivial, nofun⟩
  · intro expanding first last schema name shape consistent found emitted accepts yields keeps
    cases yields with
    | expandAtomic isAtomic => cases isAtomic
    | expandIntersection => exact absurd rfl isChoice

/-- A value that satisfies whatever comes of each member satisfies what the members contribute. -/
theorem suits_members {nodes : List SchemaNode} {depth : Nat} {inputs : List IntersectionMember}
    (yields : Yields judgement.context expanding first (.members nodes depth) (.inputs inputs) last)
    (consistent : Consistent judgement.context first) (keeps : judgement.Keeps last)
    (each : ∀ node ∈ nodes, judgement.Preserves node value) :
    ∀ input ∈ inputs, judgement.SuitsInput value input.shape ∧
      ∀ name, input.reference = some name → ∃ target,
        judgement.context.emitted? target = some name ∧ judgement.Grants value target := by
  -- The members are walked through one after the other. A reference brings along the name of its target,
  -- which is what the merge names where nothing else is left.
  induction nodes generalizing first inputs with
  | nil =>
    cases yields
    simp
  | cons node rest ih =>
    have ⟨preserves, others⟩ := List.forall_mem_cons.mp each
    cases yields with
    | membersReference looked inside later =>
      have ⟨between, _⟩ := looked.advances consistent
      have ⟨after, _⟩ := inside.advances between
      have grants := preserves.grants _ rfl
      refine List.forall_mem_cons.mpr ⟨⟨?_, fun name isName => ⟨_, ?_, grants⟩⟩, ih later after others⟩
      · exact grants.2 between inside (keeps.before (later.advances after).2)
      · obtain ⟨_, isAlso, emitted⟩ :=
          (judgement.context.schemaOf?_eq_some_iff _ _).mp looked.schemaOf?_reference
        cases isAlso.symm.trans isName
        exact emitted
    | membersOther isOther inside later =>
      have ⟨between, _⟩ := inside.advances consistent
      refine List.forall_mem_cons.mpr ⟨⟨?_, nofun⟩, fun input isInput => ?_⟩
      · exact preserves.contributed consistent inside (keeps.before (later.advances between).2)
      · rcases List.mem_append.mp isInput with isRequired | isLater
        · refine ⟨⟨preserves.required _ input isRequired, ?_⟩, ?_⟩ <;>
          · unfold Surroundings.requiredMembers at isRequired
            split at isRequired
            · split at isRequired
              · cases isRequired
              · cases List.mem_singleton.mp isRequired
                nofun
            · cases isRequired
        · exact ih later between others input isLater

/-- What an intersection takes from an atomic schema is its name. -/
theorem expands_of_isAtomic {schema : String} {type : TypeExpr}
    (isAtomic : judgement.context.IsAtomic schema)
    (named : judgement.context.schemaOf? type = some schema) (direct : type.nullable = false)
    (accepts : judgement.dialect.Accepts judgement.shapes type value) :
    judgement.Expands value schema := by
  obtain ⟨name, isName, emitted⟩ := (judgement.context.schemaOf?_eq_some_iff _ _).mp named
  have accepts := (accepts.of_name? isName).resolve_left fun ⟨isNullable, _⟩ => by
    cases direct.symm.trans isNullable
  obtain ⟨node, found, isAtomicNode⟩ := isAtomic
  intro expanding first last shape consistent yields keeps
  cases yields with
  | schemaChoice => exact ⟨trivial, nofun⟩
  | schema _ isNode _ isEmitted inside =>
    cases found.symm.trans isNode
    cases emitted.symm.trans isEmitted
    exact suitsExpanded_of_atomic isAtomicNode consistent found emitted accepts inside keeps

/-- A value that satisfies whatever comes of each member satisfies the shape of an intersection. -/
theorem IsFair.suits_intersection (fair : judgement.IsFair) {nodes : List SchemaNode} {depth : Nat}
    {shape : Shape}
    (yields : Yields judgement.context expanding first (.intersection nodes depth) (.shape shape) last)
    (consistent : Consistent judgement.context first) (keeps : judgement.Keeps last)
    (each : ∀ node ∈ nodes, judgement.Preserves node value) :
    judgement.dialect.SuitsShape judgement.shapes judgement.limit value shape ∧
      ∀ type, shape = .alias type → type.nullable = false → ∀ schema,
        judgement.context.schemaOf? type = some schema → judgement.Expands value schema := by
  cases yields with
  | intersectionReference isOnly _ looked =>
    -- The intersection is another name for the schema, which grants what its name admits.
    obtain ⟨traits, isMember⟩ := SchemaNode.mem_of_onlyReference? isOnly
    have grants := (each _ isMember).grants _ rfl
    refine ⟨suits_reference grants looked, fun type isAlias _ schema named => ?_⟩
    cases isAlias
    cases named.symm.trans looked.schemaOf?_reference
    exact grants.2
  | intersectionMembers _ inside merges notes =>
    -- Each member has contributed what suits the value, and so has their merge.
    have ⟨between, _⟩ := inside.advances consistent
    have keepsMiddle := keeps.before (notes.advances between).2
    have inputs := suits_members inside consistent keepsMiddle each
    have suits := Intersection.suits_mergeAllOf fair.positive fair.small keepsMiddle.shapes_eq merges
      fun input isInput => ⟨(inputs input isInput).1.1, fun name isName => by
        obtain ⟨target, emitted, grants⟩ := (inputs input isInput).2 name isName
        exact grants.1 name emitted⟩
    -- A merge that comes to a name has got it from one of the members.
    refine ⟨suits, fun type isAlias direct schema named => ?_⟩
    rw [isAlias] at suits
    obtain rfl | ⟨input, isInput, ⟨name, isReference, rfl⟩ | isScalar⟩ :=
      alias_mergeAllOf merges isAlias
    · exact absurd named (Context.schemaOf?_ne_of_unnamed rfl)
    · obtain ⟨target, emitted, grants⟩ := (inputs input isInput).2 name isReference
      cases named.symm.trans (judgement.context.schemaOf?_named emitted false)
      exact grants.2
    · exact expands_of_isAtomic ((inputs input isInput).1.2 type isScalar direct schema named) named
        direct suits.1

/-- A value that satisfies the shape of an intersection satisfies what is taken from it. -/
theorem suitsInput_take {shape : Shape} {taken : MemberShape}
    (yields : Yields judgement.context expanding first (.take shape) (.member taken) last)
    (consistent : Consistent judgement.context first) (keeps : judgement.Keeps last)
    (suits : judgement.dialect.SuitsShape judgement.shapes judgement.limit value shape)
    (expands : ∀ type, shape = .alias type → type.nullable = false → ∀ schema,
      judgement.context.schemaOf? type = some schema → judgement.Expands value schema) :
    judgement.SuitsInput value taken := by
  -- A declaration that is only another name of a schema is looked through, and else taken as it is.
  cases yields with
  | takeSchema named direct inside => exact expands _ rfl direct _ named consistent inside keeps
  | take unnamed =>
    cases shape with
    | record => exact ⟨suits, nofun⟩
    | enum =>
      refine ⟨⟨.any, Constraints.fits_empty _⟩, fun type isScalar _ schema named => ?_⟩
      cases isScalar
      exact absurd named (Context.schemaOf?_ne_of_unnamed rfl)
    | union => exact ⟨trivial, nofun⟩
    | «alias» type =>
      have scalar : judgement.SuitsInput value (.scalar type) := by
        refine ⟨suits, fun other isScalar direct schema named => ?_⟩
        cases isScalar
        cases (unnamed type rfl direct).symm.trans named
      obtain ⟨kind, nullable, constraints⟩ := type
      cases kind with
      | any => exact ⟨trivial, nofun⟩
      | primitive | array | map | named | null => exact scalar

/-- A shape that admits null in more cases is satisfied by the same values. -/
theorem suits_admitting {shape : Shape} {nullable : Bool}
    (suits : judgement.dialect.SuitsShape judgement.shapes judgement.limit value shape) :
    judgement.dialect.SuitsShape judgement.shapes judgement.limit value (shape.admitting nullable) := by
  cases shape with
  | «alias» => exact suits_withNullable suits
  | record | enum | union => exact suits

/-- A value that satisfies whatever comes of each member satisfies whatever comes of an intersection. -/
theorem IsFair.preserves_intersection (fair : judgement.IsFair) {members : List SchemaNode}
    {discriminator : Option Discriminator} {traits : NodeTraits}
    (each : ∀ member ∈ members, judgement.Preserves member value) :
    judgement.Preserves ⟨.composed .allOf members discriminator, traits⟩ value := by
  -- The shape into which the members merge suits all that satisfies each of them.
  have declared : judgement.SuitsDeclared ⟨.composed .allOf members discriminator, traits⟩ value := by
    intro expanding first last depth shape consistent yields keeps
    cases yields with
    | declarePlain isPlain => cases isPlain
    | declareIntersection notes inside =>
      exact suits_admitting
        (fair.suits_intersection inside (notes.advances consistent).1 keeps each).1
    | declareChoice isChoice | declareDiscriminated isChoice => exact absurd rfl isChoice
  -- What it contributes to another intersection is that shape, or what the named schema gives.
  have contributed :
      judgement.SuitsContributed ⟨.composed .allOf members discriminator, traits⟩ value := by
    intro expanding first last depth shape consistent yields keeps
    cases yields with
    | contributeType isType => cases isType
    | contributeIntersection inside takes =>
      have ⟨between, _⟩ := inside.advances consistent
      have ⟨suits, expands⟩ := fair.suits_intersection inside consistent
        (keeps.before (takes.advances between).2) each
      exact suitsInput_take takes between keeps suits expands
    | contributeChoice isChoice => exact absurd rfl isChoice
  refine ⟨declared, suitsUsed_of_declared rfl declared, contributed, ?_, nofun,
    fun label input isInput => by cases isInput⟩
  intro expanding first last schema name shape consistent found emitted accepts yields keeps
  cases yields with
  | expandAtomic isAtomic => cases isAtomic
  | expandIntersection inside => exact contributed consistent inside keeps

/-- Whatever comes of a node is satisfied by every value of the node. -/
theorem IsFair.preserves (fair : judgement.IsFair)
    (contained : judgement.context.model.Contains node)
    (satisfies : judgement.dialect.Satisfies judgement.context.model node value) :
    judgement.Preserves node value := by
  -- The induction is on how the node is satisfied, with one lemma for each way.
  induction satisfies with
  | @null node nullable =>
    have isNull := fair.strict node contained nullable
    obtain ⟨kind, traits⟩ := node
    cases kind <;> first | exact preserves_null | cases isNull
  | primitive isPrimitive within =>
    exact preserves_primitive isPrimitive within (fair.fits _ contained)
  | enum isListed stands => exact preserves_enum isListed stands
  | array within _ ih =>
    exact preserves_array within (fair.fits _ contained) fun item isItem =>
      ih item isItem (.items contained)
  | map _ ih => exact preserves_map fun name value isMember => ih name value isMember (.value contained)
  | object _ required undeclared _ listedIh furtherIh =>
    exact preserves_object
      (fun property isListed value isMember =>
        listedIh property isListed value isMember (.property contained isListed))
      required undeclared fun node isValue name value isMember isOther =>
        furtherIh node isValue name value isMember isOther (.additional contained isValue)
  | every _ ih =>
    exact fair.preserves_intersection fun member isMember =>
      ih member isMember (.member contained isMember)
  | @some _ _ _ _ member _ isChoice isMember inside ih =>
    refine preserves_choice isChoice isMember (fun isNull => ?_) (ih (.member contained isMember))
    obtain ⟨kind, traits⟩ := member
    cases kind <;> cases isNull
    cases inside with
    | null | onlyNull => rfl
  -- What the target preserves is granted wherever its name is used.
  | reference found _ ih => exact preserves_reference (fair.grants found (ih (.schema found)))
  | any required => exact preserves_any required
  | onlyNull => exact preserves_null

end Judgement

end ApiTypes

import ApiTypes.Proofs.References
import ApiTypes.Proofs.Synthesis.Consistency

/-!
What is asked of nodes and what comes of it, rule by rule. One relation says which value a task yields,
and another why it fails; both say in which workspace the task ends. Names of candidates and places of
reports are left open, as nothing depends on them.
-/

namespace ApiTypes

/-- What can be asked of nodes and component schemas. -/
inductive Task where
  | declare (node : SchemaNode) (depth : Nat)
  | expression (node : SchemaNode) (depth : Nat)
  | contribute (node : SchemaNode) (depth : Nat)
  /-- The contribution of a component schema by its node, under its name. -/
  | expand (node : SchemaNode) (name : String)
  | schema (schema : String)
  | reference (target : String)
  | fields (properties : List (Property SchemaNode))
  | record (properties : List (Property SchemaNode)) (additional : Option SchemaNode)
  | cases (members : List SchemaNode) (depth : Nat)
  | mapping (entries : List (String × String)) (found : Table String)
  | members (nodes : List SchemaNode) (depth : Nat)
  | intersection (nodes : List SchemaNode) (depth : Nat)
  /-- The contribution of an intersection by its shape. -/
  | take (shape : Shape)

/-- What can come of a task. -/
inductive Value where
  | shape (shape : Shape)
  | type (type : TypeExpr)
  | member (shape : MemberShape)
  | fields (fields : List Field)
  | record (shape : RecordShape)
  | names (names : List String) (nullable : Bool)
  | table (table : Table String)
  | inputs (inputs : List IntersectionMember)

namespace SchemaNode

/-- The type of a node that has no nodes inside it and is used directly. -/
def constant? (node : SchemaNode) : Option TypeExpr :=
  match node.kind with
  | .primitive base format =>
    some ⟨.primitive base format, node.traits.nullable, node.traits.constraints⟩
  | .object [] none => some { kind := .map .any, nullable := node.traits.nullable }
  | .any => some (TypeExpr.any.withNullable node.traits.nullable)
  | .null => some ⟨.null, false, {}⟩
  | _ => none

/-- Whether a node is declared wherever it is used. -/
def isDeclared (node : SchemaNode) : Bool :=
  match node.kind with
  | .enum .. | .composed .. => true
  | .object properties additional => !(properties.isEmpty && additional.isNone)
  | .primitive .. | .array _ | .map _ | .reference _ | .any | .null => false

/-- Whether an intersection takes the type of a component schema as a whole. -/
def isAtomic (node : SchemaNode) : Bool :=
  match node.kind with
  | .primitive .. | .enum .. | .array _ | .map _ | .null => true
  | .any => !node.traits.constraints.isEmpty
  | .object .. | .composed .. | .reference _ => false

/-- Whether a node contributes its type to the intersection in which it is written. -/
def contributesType (node : SchemaNode) : Bool :=
  match node.kind with
  | .primitive .. | .enum .. | .array _ | .null => true
  | .any => !node.traits.constraints.isEmpty
  | .map _ | .object .. | .composed .. | .reference _ => false

/-- What a node without a type contributes to an intersection. -/
def restriction (traits : NodeTraits) : MemberShape :=
  if traits.required.isEmpty then .unconstrained else .required traits.required

/-- A node without nodes inside it is not declared where it is used. -/
theorem isDeclared_of_constant? {node : SchemaNode} {type : TypeExpr}
    (isConstant : node.constant? = some type) : node.isDeclared = false := by
  unfold constant? at isConstant
  split at isConstant <;> simp_all [isDeclared]

end SchemaNode

/-- The field of a property with a type. -/
def Property.field (property : Property SchemaNode) (type : TypeExpr) : Field :=
  { name := CasedName.of property.name
    type
    required := property.required
    description := property.schema.traits.description
    deprecated := property.schema.traits.deprecated
    readOnly := property.schema.traits.readOnly
    writeOnly := property.schema.traits.writeOnly }

namespace Shape

/-- The same shape; another name of a type admits null as well if that is asked for. -/
def admitting (nullable : Bool) : Shape → Shape
  | «alias» target => .alias (target.withNullable (target.nullable || nullable))
  | shape => shape

/-- Whether a shape is only another name of a type. -/
def isAlias : Shape → Bool
  | «alias» _ => true
  | record _ | enum _ _ | union _ => false

/-- What a shape contributes to an intersection unless it names a component schema. -/
def taken : Shape → MemberShape
  | record shape => .record shape
  | enum _ _ => .scalar .any
  | union _ => .union
  | «alias» target =>
    match target.kind with
    | .any => .unconstrained
    | _ => .scalar target

end Shape

/-- The component schema that a type names directly. -/
def Context.schemaOf? (context : Context) (type : TypeExpr) : Option String :=
  type.name?.bind (Workspace.ofContext context).resolver.schemas.get?

/-- Why something was left out, if that is what a cause says. -/
def Cause.failure? : Cause → Option Failure
  | failed failure => some failure
  | _ => none

namespace Workspace

/-- Nothing changes but what is reported, and for that nothing is left out. -/
structure Notes (first last : Workspace) : Prop where
  resolver_eq : last.resolver = first.resolver
  registry_eq : last.registry = first.registry
  diagnostics : first.diagnostics <+: last.diagnostics
  harmless : ∀ diagnostic ∈ last.diagnostics, diagnostic ∈ first.diagnostics ∨
    diagnostic.cause.failure? = none

/-- A shape inside a schema gets a name. -/
def Registers (first : Workspace) (shape : Shape) (name : String) (last : Workspace) : Prop :=
  ∃ candidate doc deprecated path,
    first.registry.register candidate shape doc deprecated (.inline path) = (name, last.registry) ∧
      last = { first with registry := last.registry }

/-- The type of a case gets a name, unless it has one. -/
inductive NamesCase (first : Workspace) (type : TypeExpr) : String → Workspace → Prop
  | named {name : String} (isName : type.name? = some name) : NamesCase first type name first
  | declared {name : String} {last : Workspace} (unnamed : type.name? = none)
    (registers : first.Registers (.alias (type.withNullable false)) name last) :
    NamesCase first type name last

end Workspace

/-- A component schema is asked for: that changes nothing, or the schema is synthesized. -/
inductive Entry (context : Context) (expanding : List String) (target : String) :
    Workspace → Workspace → Prop
  | skip (workspace : Workspace) : Entry context expanding target workspace workspace
  | component {first inner : Workspace} {node : SchemaNode}
    (found : context.model.node? target = some node)
    (pending : first.resolver.state target = .pending) {active : List String}
    (started : ∀ other ∈ active, first.resolver.state other ≠ .pending)
    {result : Except LocatedFailure Shape}
    (ends : (Synthesis.shapeWithin
      (Synthesis.within context (!expanding.isEmpty) (target :: active) expanding) node
        (first.scopeOf target)).Ends (first.begin target) result inner) :
    Entry context expanding target first
      (inner.conclude target (first.scopeOf target).name node result)

section

variable (context : Context)

/--
A task yields a value, from one workspace to another, while the expansion of some component schemas is in
progress.
-/
inductive Yields : List String → Workspace → Task → Value → Workspace → Prop
  | constant {expanding first node depth type} (isConstant : node.constant? = some type) :
    Yields expanding first (.expression node depth) (.type type) first
  | array {expanding first last items traits depth type}
    (allowed : context.config.exceeded? traits.constraints (depth + 1) = none)
    (inside : Yields expanding first (.expression items (depth + 1)) (.type type) last) :
    Yields expanding first (.expression ⟨.array items, traits⟩ depth)
      (.type ⟨.array type, traits.nullable, traits.constraints⟩) last
  | map {expanding first last value traits depth type}
    (inside : Yields expanding first (.expression value depth) (.type type) last) :
    Yields expanding first (.expression ⟨.map value, traits⟩ depth)
      (.type { kind := .map type, nullable := traits.nullable }) last
  | use {expanding first last target traits depth type}
    (looked : Yields expanding first (.reference target) (.type type) last) :
    Yields expanding first (.expression ⟨.reference target, traits⟩ depth)
      (.type (type.withNullable (type.nullable || traits.nullable))) last
  | promoteAlias {expanding first last node depth type} (isDeclared : node.isDeclared = true)
    (declares : Yields expanding first (.declare node depth) (.shape (.alias type)) last) :
    Yields expanding first (.expression node depth)
      (.type (type.withNullable (type.nullable || node.traits.nullable))) last
  | promote {expanding first middle last node depth shape name nullable}
    (isDeclared : node.isDeclared = true)
    (declares : Yields expanding first (.declare node depth) (.shape shape) middle)
    (isPlain : shape.isAlias = false) (registers : middle.Registers shape name last)
    (fewer : nullable = true → node.traits.nullable = true)
    (carries : nullable = false → node.traits.nullable = true → ∃ union, shape = .union union) :
    Yields expanding first (.expression node depth)
      (.type ((TypeExpr.named name).withNullable nullable)) last
  | declarePlain {expanding first middle last node depth type} (isPlain : node.isDeclared = false)
    (notes : first.Notes middle)
    (inside : Yields expanding middle (.expression node depth) (.type type) last) :
    Yields expanding first (.declare node depth) (.shape (.alias type)) last
  | declareEnum {expanding first last base values traits depth} (notes : first.Notes last) :
    Yields expanding first (.declare ⟨.enum base values, traits⟩ depth)
      (.shape (.enum base values)) last
  | declareRecord {expanding first middle last properties additional traits depth shape}
    (isDeclared : SchemaNode.isDeclared ⟨.object properties additional, traits⟩ = true)
    (notes : first.Notes middle)
    (inside : Yields expanding middle (.record properties additional) (.record shape) last) :
    Yields expanding first (.declare ⟨.object properties additional, traits⟩ depth)
      (.shape (.record shape)) last
  | declareIntersection {expanding first middle last members discriminator traits depth shape}
    (notes : first.Notes middle)
    (inside : Yields expanding middle (.intersection members depth) (.shape shape) last) :
    Yields expanding first (.declare ⟨.composed .allOf members discriminator, traits⟩ depth)
      (.shape (shape.admitting traits.nullable)) last
  | declareChoice {expanding first middle last kind members traits depth names nullable shape}
    (isChoice : kind ≠ .allOf) (notes : first.Notes middle)
    (inside : Yields expanding middle (.cases members depth) (.names names nullable) last)
    (unites : unionOf kind names (traits.nullable || nullable) none = .ok shape) :
    Yields expanding first (.declare ⟨.composed kind members none, traits⟩ depth)
      (.shape shape) last
  | declareDiscriminated {expanding first middle after last kind members discriminator traits depth
      names nullable mapping shape}
    (isChoice : kind ≠ .allOf) (notes : first.Notes middle)
    (inside : Yields expanding middle (.cases members depth) (.names names nullable) after)
    (maps : Yields expanding after (.mapping discriminator.mapping.entries {})
      (.table mapping) last)
    (unites : unionOf kind names (traits.nullable || nullable)
      (some { discriminator with mapping }) = .ok shape) :
    Yields expanding first (.declare ⟨.composed kind members (some discriminator), traits⟩ depth)
      (.shape shape) last
  | contributeType {expanding first last node depth type} (isType : node.contributesType = true)
    (inside : Yields expanding first (.expression node depth) (.type type) last) :
    Yields expanding first (.contribute node depth) (.member (.scalar type)) last
  | contributeRestriction {expanding first traits depth}
    (isEmpty : traits.constraints.isEmpty = true) :
    Yields expanding first (.contribute ⟨.any, traits⟩ depth)
      (.member (SchemaNode.restriction traits)) first
  | contributeMap {expanding first last value traits depth type}
    (inside : Yields expanding first (.expression value depth) (.type type) last) :
    Yields expanding first (.contribute ⟨.map value, traits⟩ depth)
      (.member (.record { additional := some type })) last
  | contributeRecord {expanding first last properties additional traits depth shape}
    (inside : Yields expanding first (.record properties additional) (.record shape) last) :
    Yields expanding first (.contribute ⟨.object properties additional, traits⟩ depth)
      (.member (.record shape)) last
  | contributeIntersection {expanding first middle last members discriminator traits depth shape
      taken}
    (inside : Yields expanding first (.intersection members depth) (.shape shape) middle)
    (takes : Yields expanding middle (.take shape) (.member taken) last) :
    Yields expanding first (.contribute ⟨.composed .allOf members discriminator, traits⟩ depth)
      (.member taken) last
  | contributeChoice {expanding first kind members discriminator traits depth}
    (isChoice : kind ≠ .allOf) :
    Yields expanding first (.contribute ⟨.composed kind members discriminator, traits⟩ depth)
      (.member .union) first
  | expandAtomic {expanding first node name} (isAtomic : node.isAtomic = true) :
    Yields expanding first (.expand node name) (.member (.scalar (.named name))) first
  | expandRestriction {expanding first traits name} (isEmpty : traits.constraints.isEmpty = true) :
    Yields expanding first (.expand ⟨.any, traits⟩ name)
      (.member (SchemaNode.restriction traits)) first
  | expandRecord {expanding first last properties additional traits name shape}
    (inside : Yields expanding first (.record properties additional) (.record shape) last) :
    Yields expanding first (.expand ⟨.object properties additional, traits⟩ name)
      (.member (.record shape)) last
  | expandReference {expanding first middle last target traits name type shape}
    (looked : Yields expanding first (.reference target) (.type type) middle)
    (inside : Yields expanding middle (.schema target) (.member shape) last) :
    Yields expanding first (.expand ⟨.reference target, traits⟩ name) (.member shape) last
  | expandIntersection {expanding first last members discriminator traits name shape}
    (inside : Yields expanding first
      (.contribute ⟨.composed .allOf members discriminator, traits⟩ 0) (.member shape) last) :
    Yields expanding first (.expand ⟨.composed .allOf members discriminator, traits⟩ name)
      (.member shape) last
  | schemaChoice {expanding first schema node} (fresh : schema ∉ expanding)
    (found : context.model.node? schema = some node)
    (isChoice : context.model.isUnion node = true) :
    Yields expanding first (.schema schema) (.member .union) first
  | schema {expanding first last schema node name shape} (fresh : schema ∉ expanding)
    (found : context.model.node? schema = some node)
    (notChoice : context.model.isUnion node = false) (emitted : context.emitted? schema = some name)
    (inside : Yields (schema :: expanding) first (.expand node name) (.member shape) last) :
    Yields expanding first (.schema schema) (.member shape) last
  | reference {expanding first last target node name}
    (found : context.model.node? target = some node) (emitted : context.emitted? target = some name)
    (entry : Entry context expanding target first last)
    (isReady : last.resolver.state target = .resolving ∨ last.resolver.state target = .registered) :
    Yields expanding first (.reference target)
      (.type ((TypeExpr.named name).withNullable node.inheritsNull)) last
  | fieldsNil {expanding first} : Yields expanding first (.fields []) (.fields []) first
  | fieldsCons {expanding first middle last property rest type fields}
    (inside : Yields expanding first (.expression property.schema 0) (.type type) middle)
    (later : Yields expanding middle (.fields rest) (.fields fields) last) :
    Yields expanding first (.fields (property :: rest)) (.fields (property.field type :: fields))
      last
  | recordClosed {expanding first last properties fields}
    (inside : Yields expanding first (.fields properties) (.fields fields) last) :
    Yields expanding first (.record properties none) (.record { fields }) last
  | recordOpen {expanding first middle last properties value fields type}
    (inside : Yields expanding first (.fields properties) (.fields fields) middle)
    (further : Yields expanding middle (.expression value 0) (.type type) last) :
    Yields expanding first (.record properties (some value))
      (.record { fields, additional := some type }) last
  | casesNil {expanding first depth} :
    Yields expanding first (.cases [] depth) (.names [] false) first
  | casesNull {expanding first last node rest depth names nullable}
    (isNull : node.kind.isNull = true)
    (later : Yields expanding first (.cases rest depth) (.names names nullable) last) :
    Yields expanding first (.cases (node :: rest) depth) (.names names true) last
  | casesCons {expanding first middle after last node rest depth type name names nullable}
    (notNull : node.kind.isNull = false)
    (inside : Yields expanding first (.expression node depth) (.type type) middle)
    (named : middle.NamesCase type name after)
    (later : Yields expanding after (.cases rest depth) (.names names nullable) last) :
    Yields expanding first (.cases (node :: rest) depth)
      (.names (name :: names) (type.nullable || nullable)) last
  | mappingNil {expanding first found} :
    Yields expanding first (.mapping [] found) (.table found) first
  | mappingCons {expanding first middle last value target rest found type name mapping}
    (looked : Yields expanding first (.reference target) (.type type) middle)
    (isName : type.name? = some name)
    (later : Yields expanding middle (.mapping rest (found.insert value name))
      (.table mapping) last) :
    Yields expanding first (.mapping ((value, target) :: rest) found) (.table mapping) last
  | membersNil {expanding first depth} :
    Yields expanding first (.members [] depth) (.inputs []) first
  | membersReference {expanding first middle after last target traits rest depth label type shape
      inputs}
    (looked : Yields expanding first (.reference target) (.type type) middle)
    (inside : Yields expanding middle (.schema target) (.member shape) after)
    (later : Yields expanding after (.members rest depth) (.inputs inputs) last) :
    Yields expanding first (.members (⟨.reference target, traits⟩ :: rest) depth)
      (.inputs (⟨label, type.name?, shape⟩ :: inputs)) last
  | membersOther {expanding first middle last node rest depth label shape inputs}
    (isOther : node.kind.referenceTarget? = none)
    (inside : Yields expanding first (.contribute node depth) (.member shape) middle)
    (later : Yields expanding middle (.members rest depth) (.inputs inputs) last) :
    Yields expanding first (.members (node :: rest) depth)
      (.inputs (⟨label, none, shape⟩ :: (Surroundings.requiredMembers node label ++ inputs))) last
  | intersectionReference {expanding first last nodes depth target type}
    (isOnly : SchemaNode.onlyReference? nodes = some target)
    (notChoice : (context.model.node? target).any context.model.isUnion = false)
    (looked : Yields expanding first (.reference target) (.type type) last) :
    Yields expanding first (.intersection nodes depth) (.shape (.alias type)) last
  | intersectionMembers {expanding first middle last nodes depth inputs merged}
    (several : SchemaNode.onlyReference? nodes = none)
    (inside : Yields expanding first (.members nodes depth) (.inputs inputs) middle)
    (merges : mergeAllOf inputs middle.registry.equivalent = .ok merged)
    (notes : middle.Notes last) :
    Yields expanding first (.intersection nodes depth) (.shape merged.shape) last
  | takeSchema {expanding first last type schema shape}
    (named : context.schemaOf? type = some schema) (direct : type.nullable = false)
    (inside : Yields expanding first (.schema schema) (.member shape) last) :
    Yields expanding first (.take (.alias type)) (.member shape) last
  | take {expanding first shape}
    (unnamed : ∀ type, shape = .alias type → type.nullable = false →
      context.schemaOf? type = none) :
    Yields expanding first (.take shape) (.member shape.taken) first

/-- A task fails, from one workspace to another, and so does everything that asks for it. -/
inductive Fails : List String → Workspace → Task → Failure → Workspace → Prop
  | limit {expanding first items traits depth limit}
    (exceeded : context.config.exceeded? traits.constraints (depth + 1) = some limit) :
    Fails expanding first (.expression ⟨.array items, traits⟩ depth) (.arrayLimit limit) first
  | array {expanding first last items traits depth failure}
    (allowed : context.config.exceeded? traits.constraints (depth + 1) = none)
    (inside : Fails expanding first (.expression items (depth + 1)) failure last) :
    Fails expanding first (.expression ⟨.array items, traits⟩ depth) failure last
  | map {expanding first last value traits depth failure}
    (inside : Fails expanding first (.expression value depth) failure last) :
    Fails expanding first (.expression ⟨.map value, traits⟩ depth) failure last
  | use {expanding first last target traits depth failure}
    (looked : Fails expanding first (.reference target) failure last) :
    Fails expanding first (.expression ⟨.reference target, traits⟩ depth) failure last
  | promote {expanding first last node depth failure} (isDeclared : node.isDeclared = true)
    (declares : Fails expanding first (.declare node depth) failure last) :
    Fails expanding first (.expression node depth) failure last
  | declarePlain {expanding first middle last node depth failure}
    (isPlain : node.isDeclared = false) (notes : first.Notes middle)
    (inside : Fails expanding middle (.expression node depth) failure last) :
    Fails expanding first (.declare node depth) failure last
  | declareRecord {expanding first middle last properties additional traits depth failure}
    (isDeclared : SchemaNode.isDeclared ⟨.object properties additional, traits⟩ = true)
    (notes : first.Notes middle)
    (inside : Fails expanding middle (.record properties additional) failure last) :
    Fails expanding first (.declare ⟨.object properties additional, traits⟩ depth) failure last
  | declareIntersection {expanding first middle last members discriminator traits depth failure}
    (notes : first.Notes middle)
    (inside : Fails expanding middle (.intersection members depth) failure last) :
    Fails expanding first (.declare ⟨.composed .allOf members discriminator, traits⟩ depth)
      failure last
  | declareCases {expanding first middle last kind members discriminator traits depth failure}
    (isChoice : kind ≠ .allOf) (notes : first.Notes middle)
    (inside : Fails expanding middle (.cases members depth) failure last) :
    Fails expanding first (.declare ⟨.composed kind members discriminator, traits⟩ depth)
      failure last
  | declareMapping {expanding first middle after last kind members discriminator traits depth names
      nullable failure}
    (isChoice : kind ≠ .allOf) (notes : first.Notes middle)
    (inside : Yields context expanding middle (.cases members depth) (.names names nullable) after)
    (maps : Fails expanding after (.mapping discriminator.mapping.entries {}) failure last) :
    Fails expanding first (.declare ⟨.composed kind members (some discriminator), traits⟩ depth)
      failure last
  /-- A choice has no cases but null. -/
  | declareEmpty {expanding first middle after last kind members discriminator traits depth
      nullable}
    (isChoice : kind ≠ .allOf) (notes : first.Notes middle)
    (inside : Yields context expanding middle (.cases members depth) (.names [] nullable) after)
    (maps : last = after ∨ ∃ found mapping, discriminator = some found ∧
      Yields context expanding after (.mapping found.mapping.entries {}) (.table mapping) last) :
    Fails expanding first (.declare ⟨.composed kind members discriminator, traits⟩ depth)
      (.composition .emptyUnion) last
  | contributeType {expanding first last node depth failure} (isType : node.contributesType = true)
    (inside : Fails expanding first (.expression node depth) failure last) :
    Fails expanding first (.contribute node depth) failure last
  | contributeMap {expanding first last value traits depth failure}
    (inside : Fails expanding first (.expression value depth) failure last) :
    Fails expanding first (.contribute ⟨.map value, traits⟩ depth) failure last
  | contributeRecord {expanding first last properties additional traits depth failure}
    (inside : Fails expanding first (.record properties additional) failure last) :
    Fails expanding first (.contribute ⟨.object properties additional, traits⟩ depth) failure last
  | contributeIntersection {expanding first last members discriminator traits depth failure}
    (inside : Fails expanding first (.intersection members depth) failure last) :
    Fails expanding first (.contribute ⟨.composed .allOf members discriminator, traits⟩ depth)
      failure last
  | contributeTake {expanding first middle last members discriminator traits depth shape failure}
    (inside : Yields context expanding first (.intersection members depth) (.shape shape) middle)
    (takes : Fails expanding middle (.take shape) failure last) :
    Fails expanding first (.contribute ⟨.composed .allOf members discriminator, traits⟩ depth)
      failure last
  | expandRecord {expanding first last properties additional traits name failure}
    (inside : Fails expanding first (.record properties additional) failure last) :
    Fails expanding first (.expand ⟨.object properties additional, traits⟩ name) failure last
  | expandReference {expanding first last target traits name failure}
    (looked : Fails expanding first (.reference target) failure last) :
    Fails expanding first (.expand ⟨.reference target, traits⟩ name) failure last
  | expandSchema {expanding first middle last target traits name type failure}
    (looked : Yields context expanding first (.reference target) (.type type) middle)
    (inside : Fails expanding middle (.schema target) failure last) :
    Fails expanding first (.expand ⟨.reference target, traits⟩ name) failure last
  | expandIntersection {expanding first last members discriminator traits name failure}
    (inside : Fails expanding first
      (.contribute ⟨.composed .allOf members discriminator, traits⟩ 0) failure last) :
    Fails expanding first (.expand ⟨.composed .allOf members discriminator, traits⟩ name)
      failure last
  | schemaCyclic {expanding first schema} (isExpanding : schema ∈ expanding) :
    Fails expanding first (.schema schema) (.composition (.cyclicIntersection schema)) first
  | schemaUndefined {expanding first schema} (undefined : context.model.node? schema = none) :
    Fails expanding first (.schema schema) (.undefinedReference schema) first
  | schema {expanding first last schema node name failure} (fresh : schema ∉ expanding)
    (found : context.model.node? schema = some node)
    (notChoice : context.model.isUnion node = false)
    (emitted : context.emitted? schema = some name)
    (inside : Fails (schema :: expanding) first (.expand node name) failure last) :
    Fails expanding first (.schema schema) failure last
  | referenceUndefined {expanding first target} (undefined : context.model.node? target = none) :
    Fails expanding first (.reference target) (.undefinedReference target) first
  | referenceFailed {expanding first last target node}
    (found : context.model.node? target = some node)
    (entry : Entry context expanding target first last)
    (failed : last.resolver.state target = .failed) :
    Fails expanding first (.reference target) (.dependencyFailed target) last
  | fieldsHead {expanding first last property rest failure}
    (inside : Fails expanding first (.expression property.schema 0) failure last) :
    Fails expanding first (.fields (property :: rest)) failure last
  | fieldsTail {expanding first middle last property rest type failure}
    (inside : Yields context expanding first (.expression property.schema 0) (.type type) middle)
    (later : Fails expanding middle (.fields rest) failure last) :
    Fails expanding first (.fields (property :: rest)) failure last
  | recordFields {expanding first last properties additional failure}
    (inside : Fails expanding first (.fields properties) failure last) :
    Fails expanding first (.record properties additional) failure last
  | recordFurther {expanding first middle last properties value fields failure}
    (inside : Yields context expanding first (.fields properties) (.fields fields) middle)
    (further : Fails expanding middle (.expression value 0) failure last) :
    Fails expanding first (.record properties (some value)) failure last
  | casesNull {expanding first last node rest depth failure} (isNull : node.kind.isNull = true)
    (later : Fails expanding first (.cases rest depth) failure last) :
    Fails expanding first (.cases (node :: rest) depth) failure last
  | casesHead {expanding first last node rest depth failure} (notNull : node.kind.isNull = false)
    (inside : Fails expanding first (.expression node depth) failure last) :
    Fails expanding first (.cases (node :: rest) depth) failure last
  | casesTail {expanding first middle after last node rest depth type name failure}
    (notNull : node.kind.isNull = false)
    (inside : Yields context expanding first (.expression node depth) (.type type) middle)
    (named : middle.NamesCase type name after)
    (later : Fails expanding after (.cases rest depth) failure last) :
    Fails expanding first (.cases (node :: rest) depth) failure last
  | mappingHead {expanding first last value target rest found failure}
    (looked : Fails expanding first (.reference target) failure last) :
    Fails expanding first (.mapping ((value, target) :: rest) found) failure last
  | mappingTail {expanding first middle last value target rest found type name failure}
    (looked : Yields context expanding first (.reference target) (.type type) middle)
    (isName : type.name? = some name)
    (later : Fails expanding middle (.mapping rest (found.insert value name)) failure last) :
    Fails expanding first (.mapping ((value, target) :: rest) found) failure last
  | membersReference {expanding first last target traits rest depth failure}
    (looked : Fails expanding first (.reference target) failure last) :
    Fails expanding first (.members (⟨.reference target, traits⟩ :: rest) depth) failure last
  | membersSchema {expanding first middle last target traits rest depth type failure}
    (looked : Yields context expanding first (.reference target) (.type type) middle)
    (inside : Fails expanding middle (.schema target) failure last) :
    Fails expanding first (.members (⟨.reference target, traits⟩ :: rest) depth) failure last
  | membersContribute {expanding first last node rest depth failure}
    (isOther : node.kind.referenceTarget? = none)
    (inside : Fails expanding first (.contribute node depth) failure last) :
    Fails expanding first (.members (node :: rest) depth) failure last
  | membersReferenceTail {expanding first middle after last target traits rest depth type shape
      failure}
    (looked : Yields context expanding first (.reference target) (.type type) middle)
    (inside : Yields context expanding middle (.schema target) (.member shape) after)
    (later : Fails expanding after (.members rest depth) failure last) :
    Fails expanding first (.members (⟨.reference target, traits⟩ :: rest) depth) failure last
  | membersOtherTail {expanding first middle last node rest depth shape failure}
    (isOther : node.kind.referenceTarget? = none)
    (inside : Yields context expanding first (.contribute node depth) (.member shape) middle)
    (later : Fails expanding middle (.members rest depth) failure last) :
    Fails expanding first (.members (node :: rest) depth) failure last
  /-- An intersection stands for a choice. -/
  | intersectionChoice {expanding first nodes depth target}
    (isOnly : SchemaNode.onlyReference? nodes = some target)
    (isChoice : (context.model.node? target).any context.model.isUnion = true) :
    Fails expanding first (.intersection nodes depth) (.composition (.nestedUnion target)) first
  | intersectionReference {expanding first last nodes depth target failure}
    (isOnly : SchemaNode.onlyReference? nodes = some target)
    (notChoice : (context.model.node? target).any context.model.isUnion = false)
    (looked : Fails expanding first (.reference target) failure last) :
    Fails expanding first (.intersection nodes depth) failure last
  | intersectionMembers {expanding first last nodes depth failure}
    (several : SchemaNode.onlyReference? nodes = none)
    (inside : Fails expanding first (.members nodes depth) failure last) :
    Fails expanding first (.intersection nodes depth) failure last
  /-- The members of an intersection do not combine. -/
  | intersectionMerge {expanding first last nodes depth inputs error}
    (several : SchemaNode.onlyReference? nodes = none)
    (inside : Yields context expanding first (.members nodes depth) (.inputs inputs) last)
    (clashes : mergeAllOf inputs last.registry.equivalent = .error error) :
    Fails expanding first (.intersection nodes depth) (.composition error) last
  | takeSchema {expanding first last type schema failure}
    (named : context.schemaOf? type = some schema) (direct : type.nullable = false)
    (inside : Fails expanding first (.schema schema) failure last) :
    Fails expanding first (.take (.alias type)) failure last

end

end ApiTypes

import ApiTypes.Normalization
import ApiTypes.Pointer

/-! Turning the schemas of a document into schema nodes. -/

namespace ApiTypes

/-- A schema whose node depends on the pointer at which it stands. -/
abbrev PlacedNode := String → Reporting SchemaNode

namespace Lowering

/-- The base type that a type names. -/
def baseOfType? : SchemaType → Option PrimitiveBase
  | .string => some .string
  | .integer => some .integer
  | .number => some .number
  | .boolean => some .boolean
  | .array | .object | .null => none

/-- The base type of a value. -/
def baseOfValue? : Data → Option PrimitiveBase
  | .text _ => some .string
  | .bool _ => some .boolean
  | .integer _ => some .integer
  | .real _ => some .number
  | _ => none

/-- The constraints that a type accepts. -/
def targetOfType (type : SchemaType) : ConstraintTarget :=
  if type = .array then .only .array
  else ((baseOfType? type).map ConstraintTarget.ofBase).getD .none

/-- The required names that no property declares. -/
def undeclaredRequired {σ : Type} (keywords : Keywords σ) : List String :=
  keywords.required.filter fun name => !keywords.properties.contains name

/-- An array; without a schema its items are untyped. -/
def array (keywords : Keywords PlacedNode) (path : String) :
    Reporting (NodeKind SchemaNode) := do
  match keywords.items with
  | some items => return .array (← items (path ++ "/items"))
  | none => return .array .any

/-- The node of further properties, if they are typed or at least allowed expressly. -/
def additional (keywords : Keywords PlacedNode) (path : String) :
    Reporting (Option SchemaNode) := do
  match keywords.additional with
  | some (.schema value) => return some (← value (path ++ "/additionalProperties"))
  | some (.allowed true) => return some .any
  | some (.allowed false) | none => return none

/-- The properties in order. -/
def properties (required : List String) (path : String) :
    List (String × PlacedNode) → Reporting (List (Property SchemaNode))
  | [] => return []
  | (name, schema) :: rest => do
    let node ← schema (path ++ "/properties/" ++ Pointer.escape name)
    return ⟨name, required.contains name, node⟩ :: (← properties required path rest)

/-- An object, or a map if only the schema of further properties is given. -/
def object (keywords : Keywords PlacedNode) (path : String) :
    Reporting (NodeKind SchemaNode) := do
  if keywords.properties.isEmpty then
    match ← additional keywords path with
    | some value => return .map value
    | none => return .object [] none
  else
    let listed ← properties keywords.required path keywords.properties.entries
    return .object listed (← additional keywords path)

/-- The members of a composition in order, from a position on. -/
def members (path : String) : List PlacedNode → Nat → Reporting (List SchemaNode)
  | [], _ => return []
  | member :: rest, index => do
    let node ← member (path ++ "/" ++ toString index)
    return node :: (← members path rest (index + 1))

/-- A discriminator whose mapping leads to names of schemas as far as its pointers do. -/
def resolveMapping (discriminator : Discriminator) : Discriminator :=
  { discriminator with
    mapping := Table.ofEntries <| discriminator.mapping.entries.map fun (value, path) =>
      (value, (Pointer.schemaName? path).getD path) }

/-- A choice between members: `oneOf`, or else `anyOf`. -/
def union (keywords : Keywords PlacedNode) (path : String) :
    Reporting (NodeKind SchemaNode) := do
  let kind : CompositionKind := if keywords.oneOf.isEmpty then .anyOf else .oneOf
  let listed := if keywords.oneOf.isEmpty then keywords.anyOf else keywords.oneOf
  if !keywords.oneOf.isEmpty && !keywords.anyOf.isEmpty then
    Reporting.report (path ++ "/anyOf") .ignoredAnyOf
  if !keywords.properties.isEmpty then
    Reporting.report (path ++ "/properties") (.ignoredProperties kind)
  let nodes ← members (path ++ "/" ++ kind.keyword) listed 0
  return .composed kind nodes (keywords.discriminator.map resolveMapping)

/-- What the keywords beside `allOf` contribute: an object, or required names alone. -/
def siblingMember (keywords : Keywords PlacedNode) (path : String) :
    Reporting (List SchemaNode) := do
  let isObject := !keywords.properties.isEmpty || keywords.additional.isSome
  if !isObject && keywords.required.isEmpty then return []
  let kind ← if isObject then object keywords path else pure .any
  return [⟨kind, { required := undeclaredRequired keywords }⟩]

/-- What a union beside `allOf` contributes: a member that no merge accepts. -/
def siblingUnion (keywords : Keywords PlacedNode) (path : String) :
    Reporting (List SchemaNode) := do
  if keywords.oneOf.isEmpty && keywords.anyOf.isEmpty then return []
  -- The properties beside the union have become a member of their own.
  let kind ← union { keywords with properties := {} } path
  return [⟨kind, {}⟩]

/-- An intersection of members, with the keywords beside it as further members. -/
def intersection (keywords : Keywords PlacedNode) (path : String) :
    Reporting (NodeKind SchemaNode) := do
  let listed ← members (path ++ "/allOf") keywords.allOf 0
  let sibling ← siblingMember keywords path
  let union ← siblingUnion keywords path
  return .composed .allOf (listed ++ sibling ++ union) none

/-- An enumeration, and whether null is among its values. -/
def enumeration (keywords : Keywords PlacedNode) (path : String) :
    Reporting (NodeKind SchemaNode × Bool) := do
  let listed := if keywords.values.isEmpty then keywords.constant.toList else keywords.values
  let values := listed.filter fun value => !value.isNull
  let hasNull := listed.any Data.isNull
  -- The first type decides, and if it names no base then the first value does.
  let declared := do baseOfType? (← (← keywords.type).nonNull.head?)
  let base := declared.or (values.head?.bind baseOfValue?)
  if values.isEmpty then return (.null, false)
  match base with
  | some base => return (.enum base values, hasNull)
  | none =>
    Reporting.report (path ++ "/enum") .ignoredValues
    return (.any, hasNull)

/-- The kind for a single type. -/
def single (type : SchemaType) (keywords : Keywords PlacedNode) (path : String) :
    Reporting (NodeKind SchemaNode) :=
  match type with
  | .array => array keywords path
  | .object => object keywords path
  | type =>
    match baseOfType? type with
    | some base => return .primitive base keywords.format
    | none => return .null

/-- A choice between several types, each with the constraints that apply to it. -/
def multiType (types : List SchemaType) (keywords : Keywords PlacedNode) (version : SpecVersion)
    (path : String) : Reporting (NodeKind SchemaNode) := do
  -- The schema itself reports on its constraints, so what is found here is not reported again.
  let whole := (normalize keywords .every version path).collect.1.constraints
  let nodes ← types.mapM fun type => do
    let kind ← single type keywords path
    return (⟨kind, { constraints := whole.restrictedTo (targetOfType type) }⟩ : SchemaNode)
  return .composed .anyOf nodes none

/-- The kind of a schema, and whether null is among the values of an enumeration. -/
def kind (keywords : Keywords PlacedNode) (version : SpecVersion) (path : String) :
    Reporting (NodeKind SchemaNode × Bool) := do
  let unlisted (kind : Reporting (NodeKind SchemaNode)) := do return (← kind, false)
  if !keywords.allOf.isEmpty then unlisted (intersection keywords path)
  else if !keywords.oneOf.isEmpty || !keywords.anyOf.isEmpty then unlisted (union keywords path)
  else if !keywords.values.isEmpty || keywords.constant.isSome then enumeration keywords path
  else
    match keywords.type.map TypeKeyword.nonNull with
    | some [] => return (.null, false)
    | some [type] => unlisted (single type keywords path)
    | some types => unlisted (multiType types keywords version path)
    | none =>
      if !keywords.properties.isEmpty || keywords.additional.isSome then
        unlisted (object keywords path)
      else if keywords.items.isSome then unlisted (array keywords path)
      else return (.any, false)

/-- The constraints that a schema accepts: those of all its types if there are several. -/
def acceptedTarget (keywords : PlainKeywords) (kind : NodeKind SchemaNode) : ConstraintTarget :=
  match keywords.type.map TypeKeyword.nonNull with
  | some (first :: second :: rest) =>
    (first :: second :: rest).foldl (fun target type => target.union (targetOfType type)) .none
  | _ => kind.constraintTarget

/-- The node of a schema object. -/
def node (version : SpecVersion) (keywords : Keywords PlacedNode) : PlacedNode := fun path => do
  let (kind, hasNull) ← kind keywords version path
  let target := acceptedTarget keywords.toPlainKeywords kind
  let normalized ← normalize keywords target version path
  return {
    kind
    traits :=
      { nullable := normalized.nullable || hasNull
        constraints := match kind with
          | .composed .. => {}
          | _ => normalized.constraints
        required := match kind with
          | .any | .object .. => undeclaredRequired keywords
          | _ => []
        description := keywords.description
        title := keywords.title
        deprecated := keywords.deprecated.getD false
        readOnly := keywords.readOnly.getD false
        writeOnly := keywords.writeOnly.getD false } }

/-- A reference. A pointer to anything but a component schema stays and leads nowhere later. -/
def reference (path : String) : PlacedNode := fun _ =>
  return .reference ((Pointer.schemaName? path).getD path)

end Lowering

/-- The node of a schema that stands at a pointer. -/
def Schema.lower (version : SpecVersion) (schema : Schema) : PlacedNode :=
  schema.fold Lowering.reference (Lowering.node version)

/-- The nodes of all component schemas of a document. -/
structure SchemaModel where
  version : SpecVersion
  nodes : Table SchemaNode

namespace SchemaModel

/-- The nodes of named schemas in their order. -/
def lowerEntries (version : SpecVersion) :
    List (String × Schema) → Reporting (List (String × SchemaNode))
  | [] => return []
  | (name, schema) :: rest => do
    let node ← schema.lower version (Pointer.ofSchema name)
    return (name, node) :: (← lowerEntries version rest)

/-- The model of named schemas. -/
def ofSchemas (version : SpecVersion) (schemas : Table Schema) : Reporting SchemaModel := do
  return ⟨version, ⟨← lowerEntries version schemas.entries⟩⟩

/-- The model of a document. -/
def ofDocument (document : Document) : Reporting SchemaModel :=
  ofSchemas document.version document.schemas

/-- The names of the schemas in order. -/
def names (model : SchemaModel) : List String := model.nodes.keys

/-- The node of a schema. -/
def node? (model : SchemaModel) (name : String) : Option SchemaNode := model.nodes.get? name

/-- A schema with a node is one of the model. -/
theorem mem_names (model : SchemaModel) {name : String} {node : SchemaNode}
    (found : model.node? name = some node) : name ∈ model.names :=
  -- A look-up finds one of the entries, and its key is the name itself.
  Table.mem_keys_of_get?_eq_some found

end SchemaModel

end ApiTypes

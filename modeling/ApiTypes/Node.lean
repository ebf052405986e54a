import ApiTypes.Constraints
import ApiTypes.Document.Schema

/-!
Schema nodes: what a schema means once the spellings of its version are brought together. Every
schema has exactly one kind here.
-/

namespace ApiTypes

/-- A property of an object, with `σ` in the place of its schema. -/
structure Property (σ : Type) where
  name : String
  required : Bool
  schema : σ

/-- The kind of a schema, with `σ` in the places of the schemas inside it. -/
inductive NodeKind (σ : Type) where
  | primitive (base : PrimitiveBase) (format : Option String)
  | enum (base : PrimitiveBase) (values : List Data)
  | array (items : σ)
  | map (value : σ)
  /-- Listed properties in order, and the schema of all others if they are typed. -/
  | object (properties : List (Property σ)) (additional : Option σ)
  /-- Members, and for a union what tells them apart, by the names of schemas. -/
  | composed (kind : CompositionKind) (members : List σ) (discriminator : Option Discriminator)
  | reference (target : String)
  /-- A schema without any type. -/
  | any
  /-- The type that holds null alone. -/
  | null

/-- What a schema says beside its kind. -/
structure NodeTraits where
  nullable : Bool := false
  constraints : Constraints := {}
  /-- Required names that no property of the schema itself declares. -/
  required : List String := []
  description : Option String := none
  title : Option String := none
  deprecated : Bool := false
  readOnly : Bool := false
  writeOnly : Bool := false
deriving BEq

/-- A schema node. -/
structure SchemaNode where
  kind : NodeKind SchemaNode
  traits : NodeTraits := {}

namespace NodeKind

variable {σ τ : Type}

/-- The name of a kind. -/
def label : NodeKind σ → String
  | primitive base _ => base.name
  | enum _ _ => "enum"
  | array _ => "array"
  | map _ => "map"
  | object _ _ => "object"
  | composed kind _ _ => kind.keyword
  | reference _ => "reference"
  | any => "untyped"
  | null => "null"

/-- The constraints that a kind accepts. -/
def constraintTarget : NodeKind σ → ConstraintTarget
  | primitive base _ | enum base _ => .ofBase base
  | array _ => .only .array
  | _ => .none

/-- Whether a kind is the type that holds null alone. -/
def isNull : NodeKind σ → Bool
  | null => true
  | _ => false

/-- Whether a kind says nothing about a type. -/
def isAny : NodeKind σ → Bool
  | any => true
  | _ => false

/-- Whether a kind is an object with neither listed nor further properties. -/
def isEmptyObject : NodeKind σ → Bool
  | object [] none => true
  | _ => false

/-- The schema to which a kind refers. -/
def referenceTarget? : NodeKind σ → Option String
  | reference target => some target
  | _ => none

end NodeKind

namespace SchemaNode

/-- A node without any type. -/
def any : SchemaNode := ⟨.any, {}⟩

/-- A reference to a schema. -/
def reference (target : String) : SchemaNode := ⟨.reference target, {}⟩

instance : Inhabited SchemaNode := ⟨any⟩

/-- Whether a node lists required names and says nothing else. -/
def isRequiredOnly (node : SchemaNode) : Bool :=
  node.kind.isAny && node.traits.constraints.isEmpty && !node.traits.required.isEmpty

/-- Whether a node places no restriction at all. -/
def isUnconstrained (node : SchemaNode) : Bool :=
  node.kind.isAny && node.traits.constraints.isEmpty && node.traits.required.isEmpty

section

variable {β : Type} (build : NodeKind (SchemaNode × β) → NodeTraits → β)

mutual

/-- A result for every node of a tree, from the nodes inside it and their results. -/
def recurse : SchemaNode → β
  | ⟨.primitive base format, traits⟩ => build (.primitive base format) traits
  | ⟨.enum base values, traits⟩ => build (.enum base values) traits
  | ⟨.array items, traits⟩ => build (.array (items, recurse items)) traits
  | ⟨.map value, traits⟩ => build (.map (value, recurse value)) traits
  | ⟨.object properties additional, traits⟩ =>
    build (.object (recurseProperties properties) (recurseOption additional)) traits
  | ⟨.composed kind members discriminator, traits⟩ =>
    build (.composed kind (recurseList members) discriminator) traits
  | ⟨.reference target, traits⟩ => build (.reference target) traits
  | ⟨.any, traits⟩ => build .any traits
  | ⟨.null, traits⟩ => build .null traits

/-- Every property with the result of its schema. -/
def recurseProperties : List (Property SchemaNode) → List (Property (SchemaNode × β))
  | [] => []
  | ⟨name, required, schema⟩ :: rest =>
    ⟨name, required, schema, recurse schema⟩ :: recurseProperties rest

/-- A node that may be absent, with its result. -/
def recurseOption : Option SchemaNode → Option (SchemaNode × β)
  | none => none
  | some node => some (node, recurse node)

/-- Every node of a list with its result. -/
def recurseList : List SchemaNode → List (SchemaNode × β)
  | [] => []
  | node :: rest => (node, recurse node) :: recurseList rest

end

end

mutual

/-- Equality of nodes. The order of properties does not matter, and numbers compare by value. -/
def same : SchemaNode → SchemaNode → Bool
  | ⟨leftKind, leftTraits⟩, ⟨rightKind, rightTraits⟩ =>
    sameKind leftKind rightKind && leftTraits == rightTraits

/-- Equality of kinds. -/
def sameKind : NodeKind SchemaNode → NodeKind SchemaNode → Bool
  | .primitive leftBase leftFormat, .primitive rightBase rightFormat =>
    leftBase == rightBase && leftFormat == rightFormat
  | .enum leftBase leftValues, .enum rightBase rightValues =>
    leftBase == rightBase && leftValues == rightValues
  | .array left, .array right => same left right
  | .map left, .map right => same left right
  | .object leftProperties leftAdditional, .object rightProperties rightAdditional =>
    leftProperties.length == rightProperties.length
      && sameProperties leftProperties rightProperties
      && sameOption leftAdditional rightAdditional
  | .composed leftKind leftMembers leftDiscriminator,
    .composed rightKind rightMembers rightDiscriminator =>
    leftKind == rightKind && sameList leftMembers rightMembers
      && leftDiscriminator == rightDiscriminator
  | .reference left, .reference right => left == right
  | .any, .any => true
  | .null, .null => true
  | _, _ => false

/-- Whether every property of a list stands in another list of properties as well. -/
def sameProperties : List (Property SchemaNode) → List (Property SchemaNode) → Bool
  | [], _ => true
  | ⟨name, required, schema⟩ :: rest, others =>
    (match others.find? fun other => other.name == name with
      | some other => required == other.required && same schema other.schema
      | none => false)
      && sameProperties rest others

/-- Equality of nodes that may be absent. -/
def sameOption : Option SchemaNode → Option SchemaNode → Bool
  | none, none => true
  | some left, some right => same left right
  | _, _ => false

/-- Equality of lists of nodes, one by one. -/
def sameList : List SchemaNode → List SchemaNode → Bool
  | [], [] => true
  | left :: leftRest, right :: rightRest => same left right && sameList leftRest rightRest
  | _, _ => false

end

instance : BEq SchemaNode := ⟨same⟩

end SchemaNode

end ApiTypes

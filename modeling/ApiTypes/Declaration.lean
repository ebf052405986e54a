import ApiTypes.Document.Schema
import ApiTypes.TypeExpr

/-! Declarations: the named types that are derived from a document. -/

namespace ApiTypes

/-- A field of a record. -/
structure Field where
  name : CasedName
  type : TypeExpr
  required : Bool := false
  description : Option String := none
  deprecated : Bool := false
  readOnly : Bool := false
  writeOnly : Bool := false
deriving BEq

namespace Field

/-- The name of a field in documents. -/
def key (field : Field) : String := field.name.given

/-- Writes a field. -/
def toData (field : Field) : Data :=
  .record <|
    Data.field "name" field.name.toData
      ++ Data.field "ty" field.type.toData
      ++ Data.field "required" (.bool field.required)
      ++ Data.optional "description" .text field.description
      ++ Data.flag "deprecated" field.deprecated
      ++ Data.flag "read_only" field.readOnly
      ++ Data.flag "write_only" field.writeOnly

end Field

/-- An object type: its fields in order, and the type of all other properties if they are typed. -/
structure RecordShape where
  fields : List Field := []
  additional : Option TypeExpr := none
deriving BEq

/-- A choice between declared types. -/
structure UnionShape where
  kind : CompositionKind
  /-- The names of the members, none of them twice. -/
  members : List String
  nullable : Bool
  discriminator : Option Discriminator := none
deriving BEq

/-- What a declaration declares. -/
inductive Shape where
  | record (shape : RecordShape)
  /-- A closed set of values. -/
  | enum (base : PrimitiveBase) (values : List Data)
  | union (shape : UnionShape)
  /-- Another name of a type. -/
  | alias (target : TypeExpr)
deriving BEq

/-- Writes an object type without its tag. -/
def RecordShape.members (shape : RecordShape) : List (String × Data) :=
  Data.field "fields" (.list (shape.fields.map Field.toData))
    ++ Data.optional "additional" TypeExpr.toData shape.additional

namespace UnionShape

/-- Writes what tells the members apart. -/
def discriminatorData (discriminator : Discriminator) : Data :=
  .record
    [("property_name", .text discriminator.propertyName),
      ("mapping", Data.ofTable .text discriminator.mapping)]

/-- Writes a choice without its tag. -/
def fields (shape : UnionShape) : List (String × Data) :=
  Data.field "kind" (.text shape.kind.name)
    ++ Data.field "members" (Data.texts shape.members)
    ++ Data.field "nullable" (.bool shape.nullable)
    ++ Data.optional "discriminator" discriminatorData shape.discriminator

end UnionShape

namespace Shape

/-- The name of a kind of shape. -/
def label : Shape → String
  | .record _ => "record"
  | .enum _ _ => "enum"
  | .union _ => "union"
  | .alias _ => "alias"

/-- The declared types that a shape mentions, in order and as often as it does. -/
def mentions : Shape → List String
  | .record shape =>
    shape.fields.flatMap (fun field => field.type.mentions)
      ++ (shape.additional.map TypeExpr.mentions).getD []
  | .enum _ _ => []
  | .union shape =>
    shape.members ++ (shape.discriminator.map fun found => found.mapping.values).getD []
  | .alias target => target.mentions

/-- Writes a shape under the name of its kind. -/
def toData (shape : Shape) : Data :=
  let content := match shape with
    | .record shape => shape.members
    | .enum base values => [("base", .text base.name), ("values", .list values)]
    | .union shape => shape.fields
    | .alias target => target.members
  .record (("shape", .text shape.label) :: content)

end Shape

/-- Where a declaration comes from. -/
inductive Origin where
  /-- A component schema, by its name. -/
  | component (name : String)
  /-- A schema inside others, by its pointer. -/
  | inline (path : String)
deriving DecidableEq

namespace Origin

/-- Whether a declaration stands for a component schema. -/
def isComponent : Origin → Bool
  | component _ => true
  | inline _ => false

/-- Writes an origin as one of two alternatives. -/
def toData : Origin → Data
  | component name => .variant "component" (.text name)
  | inline path => .variant "inline" (.text path)

end Origin

/-- A named type. -/
structure Declaration where
  name : String
  shape : Shape
  doc : Option String := none
  deprecated : Bool := false
  origin : Origin

namespace Declaration

/-- The declared types that a declaration mentions. -/
def mentions (declaration : Declaration) : List String := declaration.shape.mentions

/-- Writes a declaration. -/
def toData (declaration : Declaration) : Data :=
  .record <|
    Data.field "name" (.text declaration.name)
      ++ Data.field "shape" declaration.shape.toData
      ++ Data.optional "doc" .text declaration.doc
      ++ Data.flag "deprecated" declaration.deprecated
      ++ Data.field "origin" declaration.origin.toData

end Declaration

end ApiTypes

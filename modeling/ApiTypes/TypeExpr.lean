import ApiTypes.Constraints
import ApiTypes.Naming

/-! Type expressions: the types of fields, items, aliases and bindings. -/

namespace ApiTypes

/-- The kind of a type, with `τ` in the places of the types inside it. -/
inductive TypeKind (τ : Type) where
  | primitive (base : PrimitiveBase) (format : Option String)
  | array (items : τ)
  | map (value : τ)
  /-- A declared type. -/
  | named (name : String)
  | any
  | null

/-- A type with its constraints. -/
structure TypeExpr where
  kind : TypeKind TypeExpr
  nullable : Bool := false
  constraints : Constraints := {}

namespace TypeExpr

/-- The type that holds every value. -/
def any : TypeExpr := ⟨.any, false, {}⟩

/-- A use of a declared type. -/
def named (name : String) : TypeExpr := ⟨.named name, false, {}⟩

instance : Inhabited TypeExpr := ⟨any⟩

/-- The same type, admitting null or not. -/
def withNullable (type : TypeExpr) (nullable : Bool) : TypeExpr := { type with nullable }

/-- The declared type that an expression uses directly. -/
def name? (type : TypeExpr) : Option String :=
  match type.kind with
  | .named name => some name
  | _ => none

/-- The declared types that an expression mentions. -/
def mentions : TypeExpr → List String
  | ⟨.named name, _, _⟩ => [name]
  | ⟨.array items, _, _⟩ => items.mentions
  | ⟨.map value, _, _⟩ => value.mentions
  | ⟨.primitive _ _, _, _⟩ | ⟨.any, _, _⟩ | ⟨.null, _, _⟩ => []

mutual

/-- Equality of types, with numbers compared by value. -/
def same : TypeExpr → TypeExpr → Bool
  | ⟨leftKind, leftNullable, leftConstraints⟩, ⟨rightKind, rightNullable, rightConstraints⟩ =>
    sameKind leftKind rightKind && leftNullable == rightNullable
      && leftConstraints == rightConstraints

/-- Equality of kinds. -/
def sameKind : TypeKind TypeExpr → TypeKind TypeExpr → Bool
  | .primitive leftBase leftFormat, .primitive rightBase rightFormat =>
    leftBase == rightBase && leftFormat == rightFormat
  | .array left, .array right => same left right
  | .map left, .map right => same left right
  | .named left, .named right => left == right
  | .any, .any => true
  | .null, .null => true
  | _, _ => false

end

instance : BEq TypeExpr := ⟨same⟩

instance : BEq (TypeKind TypeExpr) := ⟨sameKind⟩

mutual

/-- Writes a type; its admission of null and its constraints only if there are any. -/
def toData : TypeExpr → Data
  | ⟨kind, nullable, constraints⟩ =>
    .record <|
      Data.field "kind" (kindData kind)
        ++ Data.flag "nullable" nullable
        ++ (if constraints.isEmpty then [] else Data.field "constraints" constraints.toData)

/-- Writes a kind under its name. -/
def kindData : TypeKind TypeExpr → Data
  | .primitive base format =>
    .record (("type", .text "primitive") :: ("base", .text base.name)
      :: Data.optional "format" .text format)
  | .array items => .record [("type", .text "array"), ("items", toData items)]
  | .map value => .record [("type", .text "map"), ("value", toData value)]
  | .named name => .record [("type", .text "named"), ("name", .text name)]
  | .any => .record [("type", .text "any")]
  | .null => .record [("type", .text "null")]

end

/-- The members of a type as they are written. -/
def members (type : TypeExpr) : List (String × Data) :=
  match type.toData with
  | .record members => members
  | _ => []

end TypeExpr

/-- Writes a name with all its casings. -/
def CasedName.toData (name : CasedName) : Data :=
  .record
    [("original", .text name.given), ("pascal_case", .text name.pascal),
      ("camel_case", .text name.camel), ("snake_case", .text name.snake),
      ("screaming_snake", .text name.screaming)]

end ApiTypes

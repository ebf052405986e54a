import ApiTypes.Data
import ApiTypes.Table

/-! Schemas as a document writes them, before the spellings of its version are brought together. -/

namespace ApiTypes

/-- A type that a schema may name. -/
inductive SchemaType where
  | string
  | number
  | integer
  | boolean
  | array
  | object
  | null
deriving DecidableEq

namespace SchemaType

/-- All types under their names. -/
def named : List (String × SchemaType) :=
  [("string", string), ("number", number), ("integer", integer), ("boolean", boolean),
    ("array", array), ("object", object), ("null", null)]

/-- The name of a type in documents. -/
def name : SchemaType → String
  | string => "string"
  | number => "number"
  | integer => "integer"
  | boolean => "boolean"
  | array => "array"
  | object => "object"
  | null => "null"

end SchemaType

/-- The `type` keyword: one type, or since version 3.1 a list of them. -/
inductive TypeKeyword where
  | single (type : SchemaType)
  | several (types : List SchemaType)
deriving DecidableEq

namespace TypeKeyword

/-- The types in the order in which they are written. -/
def types : TypeKeyword → List SchemaType
  | single type => [type]
  | several types => types

/-- Whether the keyword has the form of version 3.1, which can express null. -/
def isMultiForm : TypeKeyword → Bool
  | single type => type = .null
  | several _ => true

/-- Whether null is among the types. -/
def containsNull (keyword : TypeKeyword) : Bool := keyword.types.contains .null

/-- The types other than null, each at its first place. -/
def nonNull (keyword : TypeKeyword) : List SchemaType :=
  keyword.types.foldl
    (fun found type => if type = .null || found.contains type then found else found ++ [type]) []

end TypeKeyword

/-- An exclusive bound: a flag on the inclusive bound, or since version 3.1 a bound of its own. -/
inductive ExclusiveBound where
  | flag (exclusive : Bool)
  | value (bound : Binary64)

/-- What tells the cases of a union apart: a property, and the schema that each value stands for. -/
structure Discriminator where
  propertyName : String
  mapping : Table String
deriving BEq

/-- The keyword for properties that are not listed: allowed or not, or of a schema. -/
inductive Additional (σ : Type) where
  | allowed (value : Bool)
  | schema (value : σ)

/-- The keywords that hold no schemas. -/
structure PlainKeywords where
  type : Option TypeKeyword := none
  format : Option String := none
  title : Option String := none
  description : Option String := none
  default : Option Data := none
  nullable : Option Bool := none
  deprecated : Option Bool := none
  required : List String := []
  discriminator : Option Discriminator := none
  values : List Data := []
  minimum : Option Binary64 := none
  maximum : Option Binary64 := none
  exclusiveMinimum : Option ExclusiveBound := none
  exclusiveMaximum : Option ExclusiveBound := none
  multipleOf : Option Binary64 := none
  minLength : Option Nat := none
  maxLength : Option Nat := none
  pattern : Option String := none
  minItems : Option Nat := none
  maxItems : Option Nat := none
  uniqueItems : Option Bool := none
  readOnly : Option Bool := none
  writeOnly : Option Bool := none
  constant : Option Data := none
  sample : Option Data := none

/-- The keywords of a schema object, with `σ` in the places of the schemas inside it. -/
structure Keywords (σ : Type) extends PlainKeywords where
  properties : Table σ := {}
  additional : Option (Additional σ) := none
  items : Option σ := none
  allOf : List σ := []
  oneOf : List σ := []
  anyOf : List σ := []

/-- A schema, or a reference to one. -/
inductive Schema where
  | ref (path : String)
  | inline (keywords : Keywords Schema)

namespace Schema

variable {β : Type}

mutual

/-- Folds a schema from the inside out: the schemas inside it are replaced by their results. -/
def fold (onRef : String → β) (onKeywords : Keywords β → β) : Schema → β
  | .ref path => onRef path
  | .inline ⟨plain, ⟨entries⟩, additional, items, allOf, oneOf, anyOf⟩ =>
    onKeywords
      { toPlainKeywords := plain
        properties := ⟨foldEntries onRef onKeywords entries⟩
        additional := foldAdditional onRef onKeywords additional
        items := foldOption onRef onKeywords items
        allOf := foldList onRef onKeywords allOf
        oneOf := foldList onRef onKeywords oneOf
        anyOf := foldList onRef onKeywords anyOf }

/-- Folds the schemas of properties. -/
def foldEntries (onRef : String → β) (onKeywords : Keywords β → β) :
    List (String × Schema) → List (String × β)
  | [] => []
  | (name, schema) :: rest =>
    (name, fold onRef onKeywords schema) :: foldEntries onRef onKeywords rest

/-- Folds the schema of properties that are not listed. -/
def foldAdditional (onRef : String → β) (onKeywords : Keywords β → β) :
    Option (Additional Schema) → Option (Additional β)
  | none => none
  | some (.allowed value) => some (.allowed value)
  | some (.schema schema) => some (.schema (fold onRef onKeywords schema))

/-- Folds a schema that may be absent. -/
def foldOption (onRef : String → β) (onKeywords : Keywords β → β) : Option Schema → Option β
  | none => none
  | some schema => some (fold onRef onKeywords schema)

/-- Folds the schemas of a list. -/
def foldList (onRef : String → β) (onKeywords : Keywords β → β) : List Schema → List β
  | [] => []
  | schema :: rest => fold onRef onKeywords schema :: foldList onRef onKeywords rest

end

end Schema

end ApiTypes

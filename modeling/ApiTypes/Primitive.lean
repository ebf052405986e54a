/-! The base types of scalars, and the three ways of composing schemas. -/

namespace ApiTypes

/-- The base type of a scalar. -/
inductive PrimitiveBase where
  | string
  | integer
  | number
  | boolean
deriving DecidableEq

namespace PrimitiveBase

/-- All base types. -/
def all : List PrimitiveBase := [string, integer, number, boolean]

/-- The name of a base type. -/
def name : PrimitiveBase → String
  | string => "string"
  | integer => "integer"
  | number => "number"
  | boolean => "boolean"

/-- Whether the values of a base type are numbers. -/
def isNumeric : PrimitiveBase → Bool
  | integer | number => true
  | string | boolean => false

end PrimitiveBase

/-- How a composition combines its members. -/
inductive CompositionKind where
  /-- A value has to satisfy every member. -/
  | allOf
  /-- A value has to satisfy exactly one member. -/
  | oneOf
  /-- A value has to satisfy some member. -/
  | anyOf
deriving DecidableEq

namespace CompositionKind

/-- The keyword of a composition in documents. -/
def keyword : CompositionKind → String
  | allOf => "allOf"
  | oneOf => "oneOf"
  | anyOf => "anyOf"

/-- The name of a composition in results. -/
def name : CompositionKind → String
  | allOf => "all_of"
  | oneOf => "one_of"
  | anyOf => "any_of"

/-- Whether a composition is a choice between its members. -/
def isUnion : CompositionKind → Bool
  | allOf => false
  | oneOf | anyOf => true

end CompositionKind

end ApiTypes

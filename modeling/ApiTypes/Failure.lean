import ApiTypes.Binary64

/-! Why types cannot be derived from a schema, and what is lost when members are merged. -/

namespace ApiTypes

/-- Why the members of a composition do not combine. -/
inductive CompositionError where
  | fieldConflict (field : String)
  | additionalPropertiesConflict
  | nonObjectMember (member : String)
  | nestedUnion (member : String)
  | cyclicIntersection (member : String)
  | emptyUnion
deriving DecidableEq

namespace CompositionError

/-- The message of an error. -/
def message : CompositionError → String
  | fieldConflict field => "allOf members disagree on the shape of field `" ++ field ++ "`"
  | additionalPropertiesConflict => "allOf members disagree on additionalProperties"
  | nonObjectMember member =>
    "allOf member " ++ member ++ " is not an object and cannot be merged"
  | nestedUnion member =>
    "oneOf/anyOf nested inside allOf (member " ++ member ++ ") is not supported"
  | cyclicIntersection member => "allOf member " ++ member ++ " includes itself"
  | emptyUnion => "union has no members"

end CompositionError

/-- A limit on arrays, and what exceeds it. -/
inductive ArrayLimit where
  | depth (reached limit : Nat)
  | items (maxItems limit : Nat)
deriving DecidableEq

/-- The message of an exceeded limit. -/
def ArrayLimit.message : ArrayLimit → String
  | depth reached limit =>
    "array nesting depth " ++ toString reached ++ " exceeds the limit of " ++ toString limit
  | items maxItems limit =>
    "maxItems " ++ toString maxItems ++ " exceeds the limit of " ++ toString limit

/-- Why a schema or an operation has no types. -/
inductive Failure where
  | undefinedReference (name : String)
  | dependencyFailed (dependency : String)
  | circularAlias (name : String)
  | composition (error : CompositionError)
  | arrayLimit (exceeded : ArrayLimit)
deriving DecidableEq

/-- The message of a failure. -/
def Failure.message : Failure → String
  | undefinedReference name => "undefined reference `" ++ name ++ "`"
  | dependencyFailed dependency => "depends on `" ++ dependency ++ "`, which failed"
  | circularAlias name => "`" ++ name ++ "` is an alias of itself through a reference cycle"
  | composition error => error.message
  | arrayLimit exceeded => exceeded.message

/-- A failure at a place of the document. -/
structure LocatedFailure where
  path : String
  failure : Failure
deriving DecidableEq

/-- What merging members could not express, or found to be empty. -/
inductive MergeNote where
  /-- A field has two patterns, of which the first is kept. -/
  | patternDropped (field kept dropped : String)
  /-- A field has two divisors without an exact common multiple, of which the first is kept. -/
  | multipleOfDropped (field : String) (kept dropped : Binary64)
  /-- The bounds of a field admit no value. -/
  | emptyRange (field : String)
  /-- A required name is declared by no member. -/
  | unknownRequired (field : String)

end ApiTypes

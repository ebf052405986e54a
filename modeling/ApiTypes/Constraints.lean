import ApiTypes.Data
import ApiTypes.Primitive

/-! Constraints on the values of a type, by the families of types to which they apply. -/

namespace ApiTypes

/-- A bound on numbers, which may or may not belong to the range itself. -/
structure Bound where
  value : Binary64
  exclusive : Bool
deriving BEq

namespace Bound

/-- A bound that belongs to its range. -/
def inclusive (value : Binary64) : Bound := ⟨value, false⟩

/-- A bound that does not belong to its range. -/
def exclusively (value : Binary64) : Bound := ⟨value, true⟩

/-- Writes a bound. -/
def toData (bound : Bound) : Data :=
  .record [("bound", .real bound.value), ("exclusive", .bool bound.exclusive)]

end Bound

/-- The constraints on the values of a type. -/
structure Constraints where
  minimum : Option Bound := none
  maximum : Option Bound := none
  multipleOf : Option Binary64 := none
  minLength : Option Nat := none
  maxLength : Option Nat := none
  pattern : Option String := none
  minItems : Option Nat := none
  maxItems : Option Nat := none
  uniqueItems : Bool := false
deriving BEq

/-- The families of types to which constraints apply. -/
inductive ConstraintFamily where
  | numeric
  | string
  | array
deriving DecidableEq

/-- The keywords of constraints. -/
inductive ConstraintKeyword where
  | minimum
  | maximum
  | multipleOf
  | minLength
  | maxLength
  | pattern
  | minItems
  | maxItems
  | uniqueItems
deriving DecidableEq

namespace ConstraintKeyword

/-- All keywords, family by family. -/
def all : List ConstraintKeyword :=
  [minimum, maximum, multipleOf, minLength, maxLength, pattern, minItems, maxItems, uniqueItems]

/-- The name of a keyword in documents. -/
def name : ConstraintKeyword → String
  | minimum => "minimum"
  | maximum => "maximum"
  | multipleOf => "multipleOf"
  | minLength => "minLength"
  | maxLength => "maxLength"
  | pattern => "pattern"
  | minItems => "minItems"
  | maxItems => "maxItems"
  | uniqueItems => "uniqueItems"

/-- The family to which a keyword belongs. -/
def family : ConstraintKeyword → ConstraintFamily
  | minimum | maximum | multipleOf => .numeric
  | minLength | maxLength | pattern => .string
  | minItems | maxItems | uniqueItems => .array

end ConstraintKeyword

/-- The families of constraints that a kind of schema accepts. -/
structure ConstraintTarget where
  numeric : Bool := false
  string : Bool := false
  array : Bool := false
deriving DecidableEq

namespace ConstraintTarget

/-- Accepts no family. -/
def none : ConstraintTarget := {}

/-- Accepts every family. -/
def every : ConstraintTarget := ⟨true, true, true⟩

/-- Accepts one family. -/
def only : ConstraintFamily → ConstraintTarget
  | .numeric => { numeric := true }
  | .string => { string := true }
  | .array => { array := true }

/-- Accepts what either of two targets accepts. -/
def union (left right : ConstraintTarget) : ConstraintTarget :=
  ⟨left.numeric || right.numeric, left.string || right.string, left.array || right.array⟩

/-- Whether a family is accepted. -/
def accepts (target : ConstraintTarget) : ConstraintFamily → Bool
  | .numeric => target.numeric
  | .string => target.string
  | .array => target.array

/-- The family of a base type. -/
def ofBase : PrimitiveBase → ConstraintTarget
  | .string => only .string
  | .integer | .number => only .numeric
  | .boolean => none

end ConstraintTarget

namespace Constraints

/-- Whether a constraint is given. -/
def has (constraints : Constraints) : ConstraintKeyword → Bool
  | .minimum => constraints.minimum.isSome
  | .maximum => constraints.maximum.isSome
  | .multipleOf => constraints.multipleOf.isSome
  | .minLength => constraints.minLength.isSome
  | .maxLength => constraints.maxLength.isSome
  | .pattern => constraints.pattern.isSome
  | .minItems => constraints.minItems.isSome
  | .maxItems => constraints.maxItems.isSome
  | .uniqueItems => constraints.uniqueItems

/-- The constraints that are given. -/
def present (constraints : Constraints) : List ConstraintKeyword :=
  ConstraintKeyword.all.filter constraints.has

/-- Whether no constraint is given. -/
def isEmpty (constraints : Constraints) : Bool := constraints.present.isEmpty

/-- Whether a constraint of a family is given. -/
def hasFamily (constraints : Constraints) (family : ConstraintFamily) : Bool :=
  constraints.present.any fun keyword => keyword.family = family

/-- The given constraints that a target does not accept. -/
def rejectedBy (constraints : Constraints) (target : ConstraintTarget) : List ConstraintKeyword :=
  constraints.present.filter fun keyword => !target.accepts keyword.family

/-- Keeps the constraints that a target accepts. -/
def restrictedTo (constraints : Constraints) (target : ConstraintTarget) : Constraints :=
  let keep {α : Type} (accepted : Bool) (value : Option α) := if accepted then value else none
  { minimum := keep target.numeric constraints.minimum
    maximum := keep target.numeric constraints.maximum
    multipleOf := keep target.numeric constraints.multipleOf
    minLength := keep target.string constraints.minLength
    maxLength := keep target.string constraints.maxLength
    pattern := keep target.string constraints.pattern
    minItems := keep target.array constraints.minItems
    maxItems := keep target.array constraints.maxItems
    uniqueItems := target.array && constraints.uniqueItems }

/-- Whether bounds on numbers leave no number between them. -/
def excludesNumbers : Option Bound → Option Bound → Bool
  | some least, some greatest =>
    Binary64.lt greatest.value least.value
      || (least.value == greatest.value && (least.exclusive || greatest.exclusive))
  | _, _ => false

/-- Whether bounds on counts leave no count between them. -/
def excludesCounts : Option Nat → Option Nat → Bool
  | some least, some greatest => greatest < least
  | _, _ => false

/-- Whether the range of a family is empty. -/
def isEmptyRange (constraints : Constraints) : ConstraintFamily → Bool
  | .numeric => excludesNumbers constraints.minimum constraints.maximum
  | .string => excludesCounts constraints.minLength constraints.maxLength
  | .array => excludesCounts constraints.minItems constraints.maxItems

/-- Writes the constraints that are given. -/
def toData (constraints : Constraints) : Data :=
  .record <|
    Data.optional "minimum" Bound.toData constraints.minimum
      ++ Data.optional "maximum" Bound.toData constraints.maximum
      ++ Data.optional "multiple_of" .real constraints.multipleOf
      ++ Data.optional "min_length" Data.natural constraints.minLength
      ++ Data.optional "max_length" Data.natural constraints.maxLength
      ++ Data.optional "pattern" .text constraints.pattern
      ++ Data.optional "min_items" Data.natural constraints.minItems
      ++ Data.optional "max_items" Data.natural constraints.maxItems
      ++ Data.flag "unique_items" constraints.uniqueItems

end Constraints

end ApiTypes

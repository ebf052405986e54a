import ApiTypes.Binary64.Arithmetic
import ApiTypes.Constraints
import ApiTypes.Failure

/-! The constraints of values that satisfy two sets of constraints at once. -/

namespace ApiTypes.Constraints

/-- The stricter of two bounds, where `beyond` says that the second is stricter by its value. -/
def stricter (beyond : Binary64 → Binary64 → Bool) :
    Option Bound → Option Bound → Option Bound
  | some left, some right =>
    if beyond right.value left.value || (right.value == left.value && right.exclusive) then
      some right
    else some left
  | some left, none => some left
  | none, right => right

/-- One of two counts by a rule, or the only one. -/
def narrow (pick : Nat → Nat → Nat) : Option Nat → Option Nat → Option Nat
  | some left, some right => some (pick left right)
  | left, right => left.or right

/-- The least number that is a multiple of both, if it can be found exactly. -/
def commonMultiple? (left right : Binary64) : Option Binary64 :=
  let (low, high) := if Binary64.lt left right then (left, right) else (right, left)
  let one := Binary64.ofInt 1
  if left == right then some left
  else if Binary64.lt (.zero false) low && (high.div low).isWhole then some high
  else if left.isWhole && right.isWhole && Binary64.le one left && Binary64.le one right then
    let first := left.toWord
    let second := right.toWord
    some (Binary64.ofRatio false (Binary64.mulWords (first / Nat.gcd first second) second) 1)
  else none

/-- The divisor of numbers that both divide, or else the first one with a note. -/
def intersectDivisors (field : String) :
    Option Binary64 → Option Binary64 → Option Binary64 × List MergeNote
  | some left, some right =>
    match commonMultiple? left right with
    | some multiple => (some multiple, [])
    | none => (some left, [.multipleOfDropped field left right])
  | left, right => (left.or right, [])

/-- The pattern that texts have to match: the first of two different ones is kept with a note. -/
def intersectPatterns (field : String) :
    Option String → Option String → Option String × List MergeNote
  | some left, some right =>
    (some left, if left = right then [] else [.patternDropped field left right])
  | left, right => (left.or right, [])

/-- The constraints of both sets on a field, with notes on what one set cannot say. -/
def intersect (field : String) (left right : Constraints) : Constraints × List MergeNote :=
  let (multipleOf, divisorNotes) := intersectDivisors field left.multipleOf right.multipleOf
  let (pattern, patternNotes) := intersectPatterns field left.pattern right.pattern
  ({ minimum := stricter (fun value other => Binary64.lt other value) left.minimum right.minimum
     maximum := stricter Binary64.lt left.maximum right.maximum
     multipleOf
     minLength := narrow max left.minLength right.minLength
     maxLength := narrow min left.maxLength right.maxLength
     pattern
     minItems := narrow max left.minItems right.minItems
     maxItems := narrow min left.maxItems right.maxItems
     uniqueItems := left.uniqueItems || right.uniqueItems },
    divisorNotes ++ patternNotes)

/-- Whether some range admits no value. -/
def hasEmptyRange (constraints : Constraints) : Bool :=
  [ConstraintFamily.numeric, .string, .array].any constraints.isEmptyRange

end ApiTypes.Constraints

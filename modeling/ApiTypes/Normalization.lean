import ApiTypes.Diagnostic
import ApiTypes.Document
import ApiTypes.Node

/-!
Bringing the spellings of both versions together: one flag for null, one bound for each end of a
range, and no constraint that does not apply to the schema.
-/

namespace ApiTypes

namespace Normalization

/-- Whether the keywords admit null. Types that can express null win over the flag. -/
def nullable (keywords : PlainKeywords) (version : SpecVersion) (path : String) :
    Reporting Bool := do
  let multiForm := keywords.type.filter TypeKeyword.isMultiForm
  if multiForm.isSome && version = .v30 then Reporting.report path .typeListInOldVersion
  if keywords.nullable == some true && version = .v31 then
    Reporting.report path .nullableInNewVersion
  match multiForm with
  | none => return keywords.nullable.getD false
  | some types =>
    match keywords.nullable with
    | none => pure ()
    | some flag =>
      if flag != types.containsNull then
        Reporting.report path (.nullableConflict flag types.containsNull)
    return types.containsNull

/-- Of an inclusive and an exclusive bound, the one that admits fewer numbers. -/
def tighter (rangeEnd : RangeEnd) (inclusive exclusive : Binary64) : Bound :=
  let exclusiveWins := match rangeEnd with
    | .lower => Binary64.le inclusive exclusive
    | .upper => Binary64.le exclusive inclusive
  if exclusiveWins then .exclusively exclusive else .inclusive inclusive

/-- The bound at one end of the range. -/
def bound (rangeEnd : RangeEnd) (inclusive : Option Binary64) (exclusive : Option ExclusiveBound)
    (version : SpecVersion) (path : String) : Reporting (Option Bound) := do
  match exclusive with
  | none => return inclusive.map .inclusive
  | some (.flag flag) =>
    if version = .v31 then Reporting.report path (.flagInNewVersion rangeEnd)
    if inclusive.isNone && flag then Reporting.report path (.danglingFlag rangeEnd)
    return inclusive.map fun value => ⟨value, flag⟩
  | some (.value value) =>
    if version = .v30 then Reporting.report path (.numberInOldVersion rangeEnd)
    return some (match inclusive with
      | none => .exclusively value
      | some inclusive => tighter rangeEnd inclusive value)

/-- How messages describe what the schema is a schema of. -/
def describe (keywords : PlainKeywords) (hasProperties : Bool) : String :=
  match keywords.type with
  | some (.single type) => type.name
  | some (.several types) => "|".intercalate (types.map SchemaType.name)
  | none => if hasProperties then "object" else "untyped"

/-- All constraints that the keywords state. -/
def stated (keywords : PlainKeywords) (version : SpecVersion) (path : String) :
    Reporting Constraints := do
  let minimum ← bound .lower keywords.minimum keywords.exclusiveMinimum version path
  let maximum ← bound .upper keywords.maximum keywords.exclusiveMaximum version path
  return {
    minimum
    maximum
    multipleOf := keywords.multipleOf
    minLength := keywords.minLength
    maxLength := keywords.maxLength
    pattern := keywords.pattern
    minItems := keywords.minItems
    maxItems := keywords.maxItems
    uniqueItems := keywords.uniqueItems.getD false }

end Normalization

/-- The constraints and the admission of null that the keywords of a schema amount to. -/
structure NormalizedKeywords where
  constraints : Constraints
  nullable : Bool

/-- Normalizes the keywords of a schema whose kind accepts the constraints of a target. -/
def normalize {σ : Type} (keywords : Keywords σ) (target : ConstraintTarget)
    (version : SpecVersion) (path : String) : Reporting NormalizedKeywords := do
  let plain := keywords.toPlainKeywords
  let nullable ← Normalization.nullable plain version path
  let stated ← Normalization.stated plain version path
  let kind := Normalization.describe plain !keywords.properties.isEmpty
  for keyword in stated.rejectedBy target do
    Reporting.report path (.inapplicable keyword kind)
  let constraints := stated.restrictedTo target
  for family in [ConstraintFamily.numeric, .string, .array] do
    if constraints.isEmptyRange family then Reporting.report path (.invertedRange family)
  return { constraints, nullable }

end ApiTypes

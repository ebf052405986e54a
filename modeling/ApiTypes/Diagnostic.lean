import ApiTypes.Binary64.Digits
import ApiTypes.Constraints
import ApiTypes.Failure

/-! Diagnostics: what was noticed at a place of the document, with its severity, code and text. -/

namespace ApiTypes

/-- How serious a diagnostic is. -/
inductive Severity where
  | info
  | warning
  /-- What stands at the place was left out. -/
  | error
deriving DecidableEq

/-- The name of a severity. -/
def Severity.name : Severity → String
  | info => "info"
  | warning => "warning"
  | error => "error"

/-- The two ends of a range of numbers. -/
inductive RangeEnd where
  | lower
  | upper
deriving DecidableEq

namespace RangeEnd

/-- The keyword of the inclusive bound at an end. -/
def keyword : RangeEnd → String
  | lower => "minimum"
  | upper => "maximum"

/-- The keyword of the exclusive bound at an end. -/
def exclusiveKeyword : RangeEnd → String
  | lower => "exclusiveMinimum"
  | upper => "exclusiveMaximum"

end RangeEnd

/-- What a diagnostic is about. -/
inductive Cause where
  /-- A list of types, or the type of null, in a document of version 3.0. -/
  | typeListInOldVersion
  /-- The keyword `nullable` in a document of version 3.1. -/
  | nullableInNewVersion
  /-- A flag as the exclusive bound in a document of version 3.1. -/
  | flagInNewVersion (rangeEnd : RangeEnd)
  /-- A number as the exclusive bound in a document of version 3.0. -/
  | numberInOldVersion (rangeEnd : RangeEnd)
  /-- The keyword `nullable` contradicts the types, which win. -/
  | nullableConflict (flag fromTypes : Bool)
  /-- A flag for an exclusive bound without the bound. -/
  | danglingFlag (rangeEnd : RangeEnd)
  /-- A constraint that does not apply to the schema, which is described by its types. -/
  | inapplicable (keyword : ConstraintKeyword) (kind : String)
  /-- A lower bound above its upper bound. -/
  | invertedRange (family : ConstraintFamily)
  /-- The keyword `anyOf` beside `oneOf`. -/
  | ignoredAnyOf
  /-- Properties beside a union. -/
  | ignoredProperties (kind : CompositionKind)
  /-- Values of an enumeration that are not scalars. -/
  | ignoredValues
  /-- A required name that is no property. -/
  | undeclaredRequired (name : String)
  /-- An imperfection of a merge. -/
  | merged (note : MergeNote)
  /-- A schema or an operation is left out. -/
  | failed (failure : Failure)
  /-- A bound operation is left out because one of its types is. -/
  | operationDropped (operation dependency : String)

namespace Cause

/-- How serious a cause is. -/
def severity : Cause → Severity
  | typeListInOldVersion | nullableInNewVersion | flagInNewVersion _ | numberInOldVersion _ => .info
  | failed _ | operationDropped _ _ => .error
  | _ => .warning

/-- The code of a failure. -/
def failureCode : Failure → String
  | .undefinedReference _ => "undefined_reference"
  | .dependencyFailed _ => "dependency_failed"
  | .circularAlias _ => "circular_alias"
  | .composition (.nestedUnion _) => "nested_union_in_intersection"
  | .composition _ => "composition_error"
  | .arrayLimit _ => "max_items_exceeded"

/-- The code of a cause. -/
def code : Cause → String
  | typeListInOldVersion | nullableInNewVersion | flagInNewVersion _ | numberInOldVersion _ =>
    "version_mismatch"
  | nullableConflict _ _ => "nullable_conflict"
  | danglingFlag _ => "dangling_exclusive_flag"
  | inapplicable _ _ => "constraint_type_mismatch"
  | invertedRange _ | merged (.emptyRange _) => "inverted_range"
  | ignoredAnyOf | ignoredProperties _ | ignoredValues | undeclaredRequired _ | merged _ =>
    "ignored_keyword"
  | failed failure => failureCode failure
  | operationDropped _ _ => "dependency_failed"

/-- Numbers in messages are written without an exponent, and without a point if they are whole. -/
def numberLayout : NumberLayout where
  tie := .away
  positional := none
  pointZero := false
  exponentSign := false
  nan := "NaN"
  infinity := "inf"

/-- A name in messages. -/
def quoted (name : String) : String := "`" ++ name ++ "`"

/-- How messages name the range of a family. -/
def rangeName : ConstraintFamily → String
  | .numeric => "minimum/maximum"
  | .string => "minLength/maxLength"
  | .array => "minItems/maxItems"

/-- The message of a note. -/
def noteMessage : MergeNote → String
  | .patternDropped field kept dropped =>
    "field " ++ quoted field ++ " has patterns " ++ quoted kept ++ " and " ++ quoted dropped
      ++ "; only the first is kept"
  | .multipleOfDropped field kept dropped =>
    "field " ++ quoted field ++ " has multipleOf " ++ numberLayout.render kept ++ " and "
      ++ numberLayout.render dropped ++ "; only " ++ numberLayout.render kept ++ " is kept"
  | .emptyRange field => "allOf members leave no valid value for field " ++ quoted field
  | .unknownRequired field =>
    "required property " ++ quoted field ++ " is not defined by any allOf member"

/-- The message of a cause. -/
def message : Cause → String
  | typeListInOldVersion =>
    "type arrays are an OpenAPI 3.1 feature; interpreting with 3.1 semantics"
  | nullableInNewVersion =>
    "`nullable` is an OpenAPI 3.0 keyword; prefer a \"null\" entry in `type`"
  | flagInNewVersion rangeEnd =>
    "boolean " ++ quoted rangeEnd.exclusiveKeyword ++ " is OpenAPI 3.0 syntax"
  | numberInOldVersion rangeEnd =>
    "numeric " ++ quoted rangeEnd.exclusiveKeyword ++ " is OpenAPI 3.1 syntax"
  | nullableConflict flag fromTypes =>
    quoted ("nullable: " ++ toString flag)
      ++ " disagrees with the `type` keyword; using nullable = " ++ toString fromTypes
  | danglingFlag rangeEnd =>
    quoted (rangeEnd.exclusiveKeyword ++ ": true") ++ " without " ++ quoted rangeEnd.keyword
      ++ "; ignored"
  | inapplicable keyword kind =>
    quoted keyword.name ++ " does not apply to " ++ kind ++ " schemas; dropped"
  | invertedRange family =>
    rangeName family ++ ": lower bound exceeds upper bound; no value can satisfy it"
  | ignoredAnyOf => "`anyOf` next to `oneOf` is ignored"
  | ignoredProperties kind => "`properties` next to " ++ quoted kind.keyword ++ " are ignored"
  | ignoredValues => "enum values are not scalars; treating the schema as untyped"
  | undeclaredRequired name =>
    "required property " ++ quoted name ++ " is not defined in `properties`"
  | merged note => noteMessage note
  | failed failure => failure.message
  | operationDropped operation dependency =>
    "operation " ++ quoted operation ++ " depends on " ++ quoted dependency ++ ", which failed"

end Cause

/-- Something noticed at a place of the document. -/
structure Diagnostic where
  /-- The place as a pointer into the document. -/
  path : String
  cause : Cause

namespace Diagnostic

/-- The diagnostic of a failure. -/
def ofFailure (located : LocatedFailure) : Diagnostic := ⟨located.path, .failed located.failure⟩

/-- Whether something was left out. -/
def isError (diagnostic : Diagnostic) : Bool := diagnostic.cause.severity = .error

/-- A diagnostic on one line. -/
def line (diagnostic : Diagnostic) : String :=
  diagnostic.cause.severity.name ++ ": " ++ diagnostic.cause.message ++ " (" ++ diagnostic.path
    ++ ")"

/-- Writes a diagnostic. -/
def toData (diagnostic : Diagnostic) : Data :=
  .record
    [("severity", .text diagnostic.cause.severity.name), ("code", .text diagnostic.cause.code),
      ("path", .text diagnostic.path), ("message", .text diagnostic.cause.message)]

end Diagnostic

/-- A computation that collects diagnostics. -/
abbrev Reporting := StateM (List Diagnostic)

namespace Reporting

/-- Adds a diagnostic to those collected so far. -/
def report (path : String) (cause : Cause) : Reporting Unit :=
  modify (· ++ [⟨path, cause⟩])

/-- The result of a computation that starts without diagnostics, and what it collected. -/
def collect {α : Type} (computation : Reporting α) : α × List Diagnostic :=
  computation.run []

end Reporting

end ApiTypes

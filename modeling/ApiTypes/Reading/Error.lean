import ApiTypes.Data.Json
import ApiTypes.Source
import ApiTypes.Text.Hidden

/-! Why a text does not give a value of a type, and the messages about it. -/

namespace ApiTypes

/-- What stands in a place where something else is expected. -/
inductive Found where
  | scalar (value : Scalar)
  | list
  | record

/-- Why a text does not give a value of the wanted type. -/
inductive ReadError where
  | text (fault : TextFault)
  | wrongType (found : Found) (expected : String)
  | wrongValue (found : Found) (expected : String)
  | wrongLength (length : Nat) (expected : String)
  | missingField (name : String)
  | duplicateField (name : String)
  | unknownVariant (name : String) (variants : List String)
  | noAlternative (name : String)

/-- The result of reading. -/
abbrev Reading (α : Type) := Except ReadError α

namespace Found

/-- A character of a quoted text in a message; one that is hidden is given by its number. -/
def escapeChar (char : Char) : List Char :=
  if char = '"' then ['\\', '"']
  else if char = '\\' then ['\\', '\\']
  else if char = '\n' then ['\\', 'n']
  else if char = '\t' then ['\\', 't']
  else if char = '\r' then ['\\', 'r']
  else if char.toNat = 0 then ['\\', '0']
  else if Text.isHidden char then
    '\\' :: 'u' :: '\x7b' :: Nat.toDigits 16 char.toNat ++ ['\x7d']
  else [char]

/-- How messages describe what they found. -/
def describe : Found → String
  | .scalar .null => "null"
  | .scalar (.bool value) => "boolean `" ++ toString value ++ "`"
  | .scalar (.integer value) => "integer `" ++ toString value ++ "`"
  | .scalar (.real value) => "floating point `" ++ Json.numberLayout.render value ++ "`"
  | .scalar (.text value) =>
    "string " ++ String.ofList ('"' :: value.toList.flatMap escapeChar ++ ['"'])
  | .list => "sequence"
  | .record => "map"

end Found

/-- The message of an error; a text that cannot be read on has none of its own. -/
def ReadError.message : ReadError → String
  | .text .unfinished => "unfinished text"
  | .text .malformed => "malformed text"
  | .wrongType found expected => "invalid type: " ++ found.describe ++ ", expected " ++ expected
  | .wrongValue found expected => "invalid value: " ++ found.describe ++ ", expected " ++ expected
  | .wrongLength length expected =>
    "invalid length " ++ toString length ++ ", expected " ++ expected
  | .missingField name => "missing field `" ++ name ++ "`"
  | .duplicateField name => "duplicate field `" ++ name ++ "`"
  | .unknownVariant name variants =>
    "unknown variant `" ++ name ++ "`, expected one of "
      ++ ", ".intercalate (variants.map fun variant => "`" ++ variant ++ "`")
  | .noAlternative name => "data did not match any variant of untagged enum " ++ name

/-- The error of finding a value where something else is expected. -/
def Source.mismatch (expected : String) (source : Source) : ReadError :=
  match source with
  | .scalar value => .wrongType (.scalar value) expected
  | .word written =>
    match written.value? with
    | some value => .wrongType (.scalar value) expected
    | none => .text .malformed
  | .list _ => .wrongType .list expected
  | .record _ => .wrongType .record expected
  | .sealed _ | .misplaced _ => .text .malformed
  | .fault place => .text place.onRead

end ApiTypes

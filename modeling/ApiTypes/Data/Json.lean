import ApiTypes.Binary64.Digits
import ApiTypes.Data

/-! Data as JSON text, on one line or with two blanks of indentation a level. -/

namespace ApiTypes.Json

/--
Numbers are written with the fewest digits that read back, positionally for leading digits between
`10 ^ -5` and `10 ^ 15`, and always with a point or an exponent. JSON has no text for a value that
is not finite, so it is written as null.
-/
def numberLayout : NumberLayout where
  tie := .toEven
  positional := some (-5, 15)
  pointZero := true
  exponentSign := true
  nan := "null"
  infinity := "null"

/-- The text of a number. -/
def numberText (number : Binary64) : String :=
  match number with
  | .finite .. => numberLayout.render number
  | _ => "null"

/-- The last two digits of a hexadecimal number. -/
def hexPair (value : Nat) : List Char :=
  [Nat.digitChar (value / 16 % 16), Nat.digitChar (value % 16)]

/-- A character inside quotes: only quotes, backslashes and control characters are escaped. -/
def escapeChar (char : Char) : List Char :=
  if char = '"' then ['\\', '"']
  else if char = '\\' then ['\\', '\\']
  else if char = '\n' then ['\\', 'n']
  else if char = '\t' then ['\\', 't']
  else if char = '\r' then ['\\', 'r']
  else if char.toNat = 8 then ['\\', 'b']
  else if char.toNat = 12 then ['\\', 'f']
  else if char.toNat < 32 then '\\' :: 'u' :: '0' :: '0' :: hexPair char.toNat
  else [char]

/-- A text in quotes. -/
def quote (text : String) : String :=
  String.ofList ('"' :: text.toList.flatMap escapeChar ++ ['"'])

mutual

/-- Data on one line, without blanks. A variant is a record whose only member is its tag. -/
def compact : Data → String
  | .null => "null"
  | .bool value => if value then "true" else "false"
  | .integer value => toString value
  | .real value => numberText value
  | .text value => quote value
  | .list items => "[" ++ compactItems items ++ "]"
  | .record members => "\x7b" ++ compactMembers members ++ "\x7d"
  | .variant tag content => "\x7b" ++ quote tag ++ ":" ++ compact content ++ "\x7d"

/-- Items separated by commas. -/
def compactItems : List Data → String
  | [] => ""
  | [item] => compact item
  | item :: rest => compact item ++ "," ++ compactItems rest

/-- Members separated by commas. -/
def compactMembers : List (String × Data) → String
  | [] => ""
  | [(name, value)] => quote name ++ ":" ++ compact value
  | (name, value) :: rest => quote name ++ ":" ++ compact value ++ "," ++ compactMembers rest

end

/-- A line break with the indentation of a level. -/
def newline (level : Nat) : String := "\n" ++ String.ofList (List.replicate (2 * level) ' ')

mutual

/-- Data on several lines, at a level of indentation; what is empty stays on its line. -/
def pretty (level : Nat) : Data → String
  | .null => "null"
  | .bool value => if value then "true" else "false"
  | .integer value => toString value
  | .real value => numberText value
  | .text value => quote value
  | .list [] => "[]"
  | .list items => "[" ++ prettyItems (level + 1) items ++ newline level ++ "]"
  | .record [] => "\x7b\x7d"
  | .record members => "\x7b" ++ prettyMembers (level + 1) members ++ newline level ++ "\x7d"
  | .variant tag content =>
    "\x7b" ++ newline (level + 1) ++ quote tag ++ ": " ++ pretty (level + 1) content
      ++ newline level ++ "\x7d"

/-- Items on lines of their own. -/
def prettyItems (level : Nat) : List Data → String
  | [] => ""
  | [item] => newline level ++ pretty level item
  | item :: rest => newline level ++ pretty level item ++ "," ++ prettyItems level rest

/-- Members on lines of their own. -/
def prettyMembers (level : Nat) : List (String × Data) → String
  | [] => ""
  | [(name, value)] => newline level ++ quote name ++ ": " ++ pretty level value
  | (name, value) :: rest =>
    newline level ++ quote name ++ ": " ++ pretty level value ++ "," ++ prettyMembers level rest

end

end ApiTypes.Json

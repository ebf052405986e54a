/-! The characters of YAML text: which are allowed, and which separate words and lines. -/

namespace ApiTypes.Yaml

/-- Whether a character may stand in a text at all; most control characters may not. -/
def isAllowed (char : Char) : Bool :=
  let code := char.toNat
  code = 9 || code = 10 || code = 13 || code = 0x85 || (0x20 ≤ code && code ≤ 0x7E)
    || (0xA0 ≤ code && code ≤ 0xFFFD) || 0x10000 ≤ code

/-- Writes every line break that stands for no more than the end of a line in the same way. -/
def unifyBreaks : List Char → List Char
  | [] => []
  | '\r' :: '\n' :: rest => '\n' :: unifyBreaks rest
  | '\r' :: rest => '\n' :: unifyBreaks rest
  | '\u0085' :: rest => '\n' :: unifyBreaks rest
  | char :: rest => char :: unifyBreaks rest

/-- Whether a character separates words within a line. -/
def isBlank (char : Char) : Bool := char == ' ' || char == '\t'

/-- Whether a character ends a line, once line breaks are unified. -/
def isBreak (char : Char) : Bool := char == '\n' || char == '\u2028' || char == '\u2029'

/-- Whether a character may stand in the name of an anchor, a directive or a tag handle. -/
def isNameChar (char : Char) : Bool := char.isAlphanum || char == '_' || char == '-'

/-- Whether a character opens, closes or separates in collections that are written in brackets. -/
def isFlowIndicator (char : Char) : Bool :=
  char == ',' || char == '[' || char == ']' || char == '\x7b' || char == '\x7d'

/-- Whether a word that ends before a text ends there for good: at a blank, a break, or the end. -/
def endsWord : List Char → Bool
  | [] => true
  | char :: _ => isBlank char || isBreak char

/-- Whether a text begins with the mark of a document's start. -/
def startsDocument : List Char → Bool
  | '-' :: '-' :: '-' :: rest => endsWord rest
  | _ => false

/-- Whether a text begins with the mark of a document's end. -/
def endsDocument : List Char → Bool
  | '.' :: '.' :: '.' :: rest => endsWord rest
  | _ => false

/-- Whether a text begins with a mark between documents. -/
def isMarker (text : List Char) : Bool := startsDocument text || endsDocument text

/-- What is left of a line. -/
def restOfLine (text : List Char) : List Char := text.takeWhile fun char => !isBreak char

/-- Whether only blanks and a comment are left of a line. -/
def isLineOver (text : List Char) : Bool :=
  match text.dropWhile isBlank with
  | [] => true
  | char :: _ => char == '#' || isBreak char

/-- The value of a hexadecimal digit. -/
def hexValue? (char : Char) : Option Nat :=
  if char.isDigit then some (char.toNat - '0'.toNat)
  else if 'a' ≤ char && char ≤ 'f' then some (char.toNat - 'a'.toNat + 10)
  else if 'A' ≤ char && char ≤ 'F' then some (char.toNat - 'A'.toNat + 10)
  else none

end ApiTypes.Yaml

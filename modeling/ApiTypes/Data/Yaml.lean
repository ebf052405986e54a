import ApiTypes.Binary64.Digits
import ApiTypes.Data
import ApiTypes.Data.Yaml.Scalar

/-! Data as YAML text, with every member and item on lines of its own. -/

namespace ApiTypes.Yaml

/--
Numbers are written with the fewest digits that read back, positionally for leading digits between
`10 ^ -5` and `10 ^ 15`, and always with a point or an exponent.
-/
def numberLayout : NumberLayout where
  tie := .toEven
  positional := some (-5, 15)
  pointZero := true
  exponentSign := false
  nan := ".nan"
  infinity := ".inf"

/-- A value with the end of its line, unless it ends in a line break of its own. -/
def endLine (text : String) : String :=
  if text.toList.getLast?.any isBreak then text else text ++ "\n"

/-- The indentation of a column. -/
def indentation (column : Nat) : String := String.ofList (List.replicate column ' ')

/-- Where a value stands on its line. -/
structure Spot where
  /-- Whether it follows the key of a record, so that the items of a list need no column. -/
  inRecord : Bool
  /-- Whether entries may begin on the line. -/
  inLine : Bool

/-- A value after the key of a member. -/
def afterKey : Spot := ⟨true, false⟩

/-- A value after a dash, or after the colon below a long key. -/
def afterMark : Spot := ⟨false, true⟩

/-- The entries of a collection in a column, the first one on the line if it may be there. -/
def block (spot : Spot) (column : Nat) (entries : List String) : String :=
  (if spot.inLine then " " else "\n" ++ indentation column)
    ++ (indentation column).intercalate entries

/-- Whether a character ends a line in any version of the format. -/
def isAnyBreak (char : Char) : Bool := isBreak char || char == '\r' || char == '\u0085'

/-- Whether a key stands on one line with its value. -/
def isSimpleKey (name : String) : Bool :=
  name.utf8ByteSize ≤ 128 && !name.toList.any isAnyBreak

mutual

/-- A value that follows a mark or a key in an entry at a column, to the end of its last line. -/
def valueText (spot : Spot) (column : Nat) : Data → String
  | .null => " null\n"
  | .bool value => if value then " true\n" else " false\n"
  | .integer value => " " ++ toString value ++ "\n"
  | .real value => " " ++ numberLayout.render value ++ "\n"
  | .text value => " " ++ endLine (scalarText (column + 2) value)
  | .list [] => " []\n"
  | .list (item :: rest) =>
    let inner := if spot.inRecord then column else column + 2
    block spot inner (itemTexts inner (item :: rest))
  | .record [] => " \x7b\x7d\n"
  | .record (member :: rest) => block spot (column + 2) (memberTexts (column + 2) (member :: rest))
  | .variant tag content => " !" ++ tag ++ valueText { spot with inLine := false } column content

/-- The items of a list at a column. -/
def itemTexts (column : Nat) : List Data → List String
  | [] => []
  | item :: rest => ("-" ++ valueText afterMark column item) :: itemTexts column rest

/-- The members of a record at a column; a long key and its value are marked on their own lines. -/
def memberTexts (column : Nat) : List (String × Data) → List String
  | [] => []
  | (name, value) :: rest =>
    (if isSimpleKey name then
      scalarText (column + 2) name ++ ":" ++ valueText afterKey column value
    else
      "? " ++ endLine (scalarText (column + 2) name) ++ indentation column ++ ":"
        ++ valueText afterMark column value)
    :: memberTexts column rest

end

/-- Data as a text of its own. -/
def text : Data → String
  | .record (member :: rest) => String.join (memberTexts 0 (member :: rest))
  | .list (item :: rest) => String.join (itemTexts 0 (item :: rest))
  | value => ((valueText afterMark 0 value).drop 1).toString

end ApiTypes.Yaml

import ApiTypes.Binary64
import ApiTypes.Source.Yaml.Characters

/-!
What a scalar stands for: nothing, a truth value, a number, or the text that it is. A scalar that is
taken in whole has one meaning; one that is read straight has the type that is wanted, if it can.
-/

namespace ApiTypes

/-- A value without parts, as a text gives it before a type is wanted. -/
inductive Scalar where
  | null
  | bool (value : Bool)
  | integer (value : Int)
  | real (value : Binary64)
  | text (value : String)

end ApiTypes

namespace ApiTypes.Yaml

-- Powers are computed, whatever structure of numbers they are also part of.
attribute [local instance (high)] instPowNat

/-- A natural written in a base; absent if a digit is missing or foreign to the base. -/
def natural? (base : Nat) (digits : List Char) : Option Nat :=
  let extend (value : Nat) (char : Char) : Option Nat := do
    let digit ← hexValue? char
    if digit < base then some (value * base + digit) else none
  if digits.isEmpty then none else digits.foldlM extend 0

/-- Whether a word is made of digits that do not count as a number, as they begin with a zero. -/
def isPaddedNumber (word : List Char) : Bool :=
  let digits := match word with
    | '-' :: rest | '+' :: rest => rest
    | _ => word
  match digits with
  | '0' :: more => !more.isEmpty && more.all Char.isDigit
  | _ => false

/-- The magnitude of an integer in one of four bases; a decimal one is not padded with zeros. -/
def magnitude? : List Char → Option Nat
  | '0' :: 'x' :: digits => natural? 16 digits
  | '0' :: 'o' :: digits => natural? 8 digits
  | '0' :: 'b' :: digits => natural? 2 digits
  | digits => if isPaddedNumber digits then none else natural? 10 digits

/-- An integer with or without a sign. -/
def integer? : List Char → Option Int
  | '-' :: rest => (magnitude? rest).map fun value => -(value : Int)
  | '+' :: rest => (magnitude? rest).map Int.ofNat
  | word => (magnitude? word).map Int.ofNat

/-- The exponent that ends a decimal number; zero if nothing is left. -/
def exponent? : List Char → Option Int
  | [] => some 0
  | char :: rest =>
    if char == 'e' || char == 'E' then
      match rest with
      | '-' :: digits => (natural? 10 digits).map fun value => -(value : Int)
      | '+' :: digits | digits => (natural? 10 digits).map Int.ofNat
    else none

/-- A decimal number without a sign; digits must stand before or after the point. -/
def decimal? (negative : Bool) (word : List Char) : Option Binary64 := do
  let whole := word.takeWhile Char.isDigit
  let afterWhole := word.dropWhile Char.isDigit
  let (fraction, rest) := match afterWhole with
    | '.' :: more => (more.takeWhile Char.isDigit, more.dropWhile Char.isDigit)
    | _ => ([], afterWhole)
  let digits ← natural? 10 (whole ++ fraction)
  let exponent ← exponent? rest
  return Binary64.ofDecimal negative digits (exponent - fraction.length)

/-- A number with a point or an exponent; one beyond the finite range is no number. -/
def real? (word : List Char) : Option Binary64 :=
  let (sign, magnitude) := match word with
    | '-' :: rest => (some true, rest)
    | '+' :: rest => (some false, rest)
    | _ => (none, word)
  if [".inf", ".Inf", ".INF"].contains (String.ofList magnitude) then
    some (.infinite (sign.getD false))
  else if sign.isNone && [".nan", ".NaN", ".NAN"].contains (String.ofList magnitude) then some .nan
  else
    match decimal? (sign.getD false) magnitude with
    | some (.infinite _) | none => none
    | number => number

/-- Words that stand for no value. -/
def nullWords : List String := ["", "~", "null", "Null", "NULL"]

/-- Words for what holds. -/
def trueWords : List String := ["true", "True", "TRUE"]

/-- Words for what does not hold. -/
def falseWords : List String := ["false", "False", "FALSE"]

/--
The meaning of a number. An integer beyond 64 bits is one that no reader takes, unless it also needs
more than 128 bits, which makes it a real if it is decimal.
-/
def number? (word : List Char) : Option (Option Scalar) :=
  let real := if isPaddedNumber word then none else (real? word).map fun value => some (.real value)
  match integer? word with
  | none => real
  | some value =>
    if -(2 ^ (63 : Nat)) ≤ value && value < 2 ^ (64 : Nat) then some (some (.integer value))
    else if -(2 ^ (127 : Nat)) ≤ value && value < 2 ^ (128 : Nat) then some none
    else real

/-- The truth value that a text stands for. -/
def truth? (text : String) : Option Bool :=
  if trueWords.contains text then some true
  else if falseWords.contains text then some false
  else none

/-- The meaning of a text without quotes; absent if it has one that no reader takes. -/
def meaning? (text : String) : Option Scalar :=
  if nullWords.contains text then some .null
  else match truth? text with
    | some value => some (.bool value)
    | none => (number? text.toList).getD (some (.text text))

/-- A natural of 64 bits, with or without a plus sign. -/
def count? (digits : List Char) : Option Nat :=
  let magnitude := match digits with
    | '+' :: rest => magnitude? rest
    | _ => magnitude? digits
  magnitude.filter (· < 2 ^ (64 : Nat))

/-- How a scalar is written. -/
inductive WordStyle where
  /-- Without quotes. -/
  | plain
  /-- As a block that keeps its line breaks. -/
  | literal
  /-- In quotes, or as a block that joins its lines. -/
  | quoted
deriving DecidableEq

/-- The basic types that a tag can ask for. -/
inductive BasicType where
  | null
  | bool
  | integer
  | real
deriving DecidableEq

namespace BasicType

/-- The beginning of the tags of basic types. -/
def tagBeginning : String := "tag:yaml.org,2002:"

/-- The tags of the basic types other than texts. -/
def tagged : List (String × BasicType) :=
  [(tagBeginning ++ "null", null), (tagBeginning ++ "bool", bool), (tagBeginning ++ "int", integer),
    (tagBeginning ++ "float", real)]

/-- The value that a text has in a basic type. Null has to be written. -/
def read? (type : BasicType) (text : String) : Option Scalar :=
  match type with
  | null => if !text.isEmpty && nullWords.contains text then some .null else none
  | bool => (truth? text).map .bool
  | integer =>
    match number? text.toList with
    | some (some (.integer value)) => some (.integer value)
    | _ => none
  | real => (real? text.toList).map .real

end BasicType

/-- A scalar as a text has it. -/
structure Word where
  text : String
  style : WordStyle := .plain
  /-- The tag that is marked at it. -/
  tag : Option String := none

namespace Word

/-- The basic type that the tag asks for. -/
def basicType? (word : Word) : Option BasicType :=
  word.tag.bind fun tag => BasicType.tagged.lookup tag

/-- The name of the foreign type that the tag asks for. -/
def foreignType? (word : Word) : Option String :=
  word.tag.bind fun tag => if tag.startsWith "!" then some (tag.drop 1).toString else none

/-- The value of a word that is taken in whole; absent if it has none that a reader takes. -/
def value? (word : Word) : Option Scalar :=
  match word.basicType? with
  | some type => type.read? word.text
  | none =>
    if word.foreignType?.isSome then none
    else if word.tag.isNone && word.style = .plain then meaning? word.text
    else some (.text word.text)

/-- Whether a word that is read straight can be a value of a basic type. -/
def admits (word : Word) (type : BasicType) : Bool :=
  word.style = .plain || word.style = .literal && word.basicType? = some type

/-- The truth value of a word that is read straight. -/
def asTruth? (word : Word) : Option Bool := if word.admits .bool then truth? word.text else none

/-- The natural number of a word that is read straight. -/
def asCount? (word : Word) : Option Nat :=
  if word.admits .integer then count? word.text.toList else none

/-- The number of a word that is read straight; digits may be padded. -/
def asReal? (word : Word) : Option Binary64 :=
  if word.admits .real then real? word.text.toList else none

/-- Whether nothing is written at all, not even quotes. -/
def isEmpty (word : Word) : Bool := word.style = .plain && word.text.isEmpty

/--
Whether a word that is read straight says that there is no value; absent if it is marked as null but
is another word. A tag of any other type says that there is one.
-/
def isNothing? (word : Word) : Option Bool :=
  if word.style ≠ .plain then some false
  else if word.basicType? = some .null then
    if (BasicType.null.read? word.text).isSome then some true else none
  else some (word.tag.isNone && nullWords.contains word.text)

/--
The name of the choice that a word makes where it is read straight: its text, or the foreign type
that it is marked with if it says no more than that.
-/
def asChoice? (word : Word) : Option String :=
  match word.foreignType? with
  | none => some word.text
  | some name => if word.style = .plain && nullWords.contains word.text then some name else none

end Word

end ApiTypes.Yaml

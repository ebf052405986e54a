import ApiTypes.Binary64.Arithmetic
import ApiTypes.Source

/-!
Numbers in JSON text. An integer of 64 bits is kept as it is. Any other number becomes a double:
its leading digits, as far as they fit into 64 bits, times or divided by a power of ten, with one
rounding for the digits, one for the power and one for the product.
-/

namespace ApiTypes.JsonNumber

-- Powers are computed, whatever structure of numbers they are also part of.
attribute [local instance (high)] instPowNat

/-- The greatest natural of 64 bits. -/
def wordMax : Nat := 2 ^ (64 : Nat) - 1

/-- The leading digits of a number as a natural, with the power of ten that belongs to them. -/
structure Leading where
  significand : Nat
  exponent : Int

/-- The value of a digit. -/
def digitValue (digit : Char) : Nat := digit.toNat - '0'.toNat

/-- A natural extended by one digit, if it still fits into 64 bits. -/
def extend? (significand : Nat) (digit : Char) : Option Nat :=
  let extended := significand * 10 + digitValue digit
  if extended ≤ wordMax then some extended else none

/-- Takes integer digits while they fit; every digit after that only raises the exponent. -/
def integerPart (significand : Nat) : List Char → Leading
  | [] => ⟨significand, 0⟩
  | digit :: rest =>
    match extend? significand digit with
    | some extended => integerPart extended rest
    | none => ⟨significand, (digit :: rest).length⟩

/-- Takes fraction digits while they fit; the digits after that are ignored. -/
def fractionPart (leading : Leading) : List Char → Leading
  | [] => leading
  | digit :: rest =>
    match extend? leading.significand digit with
    | some extended => fractionPart ⟨extended, leading.exponent - 1⟩ rest
    | none => leading

/-- A power of ten between `10 ^ 0` and `10 ^ 308`. -/
def powerOfTen (exponent : Nat) : Binary64 := Binary64.ofDecimal false 1 exponent

/--
A double divided by a power of ten, in steps of `10 ^ 308` as long as the power is greater. Three
steps bring every number of 64 bits to zero, and then the rest of the power does not matter.
-/
def shiftDown (value : Binary64) (exponent : Nat) : Binary64 :=
  if exponent ≤ 308 then value.div (powerOfTen exponent)
  else if value == Binary64.zero false then value
  else shiftDown (value.div (powerOfTen 308)) (exponent - 308)
termination_by exponent

/-- The double for leading digits and an exponent; absent if it exceeds the finite range. -/
def scaled? (significand : Nat) (exponent : Int) : Option Binary64 :=
  let value := Binary64.ofRatio false significand 1
  if exponent < 0 then some (shiftDown value exponent.natAbs)
  else if 308 < exponent then
    if significand = 0 then some value else none
  else
    match value.mul (powerOfTen exponent.toNat) with
    | .infinite _ => none
    | product => some product

/-- The sign and digits of an exponent. -/
structure Exponent where
  negative : Bool
  digits : List Char

/-- The power of ten of an exponent, unless it needs more than 31 bits. -/
def Exponent.value? (exponent : Exponent) : Option Int :=
  let magnitude := exponent.digits.foldl (fun value digit => value * 10 + digitValue digit) 0
  if magnitude < 2 ^ (31 : Nat) then
    some (if exponent.negative then -(magnitude : Int) else magnitude)
  else none

/-- A number as its text has it; an integer has neither fraction nor exponent. -/
structure Parts where
  negative : Bool
  integer : List Char
  fraction : Option (List Char)
  exponent : Option Exponent

/-- The value of a number; absent if it exceeds the finite range. -/
def Parts.value? (parts : Parts) : Option Scalar :=
  let whole := integerPart 0 parts.integer
  let signed (value : Binary64) : Scalar := .real (if parts.negative then value.negate else value)
  match parts.fraction, parts.exponent with
  | none, none =>
    -- A natural and a negative integer of 64 bits are exact; minus zero keeps its sign.
    if whole.exponent ≠ 0 then (scaled? whole.significand whole.exponent).map signed
    else if !parts.negative then some (.integer whole.significand)
    else if 1 ≤ whole.significand ∧ whole.significand ≤ 2 ^ (63 : Nat) then
      some (.integer (-(whole.significand : Int)))
    else (scaled? whole.significand 0).map signed
  | fraction, exponent =>
    let leading := fractionPart whole (fraction.getD [])
    match exponent with
    | none => (scaled? leading.significand leading.exponent).map signed
    | some power =>
      match power.value? with
      | some shift => (scaled? leading.significand (leading.exponent + shift)).map signed
      | none =>
        -- An exponent of more than 31 bits leaves zero or nothing.
        if leading.significand ≠ 0 && !power.negative then none
        else some (signed (Binary64.zero false))

/-- A number read from the head of a text, and the text after it unless the text ends for good. -/
structure Scan where
  source : Source
  rest : List Char

/-- The end of a number that lacks a digit: early ends of the text count differently if skipped. -/
def missingDigit (rest : List Char) : Scan :=
  let found : TextFault := if rest.isEmpty then .unfinished else .malformed
  ⟨.fault { onRead := found, onSkip := some .malformed }, []⟩

/-- A complete number; one beyond the finite range cannot be read but can be passed over. -/
def finish (parts : Parts) (rest : List Char) : Scan :=
  ⟨match parts.value? with
    | some value => .scalar value
    | none => .fault .unreadable, rest⟩

/-- Reads the digits of an exponent whose sign has been read. -/
def scanPower (parts : Parts) (negative : Bool) (text : List Char) : Scan :=
  let digits := text.takeWhile Char.isDigit
  let rest := text.dropWhile Char.isDigit
  if digits.isEmpty then missingDigit rest
  else finish { parts with exponent := some ⟨negative, digits⟩ } rest

/-- Reads the exponent, if the text goes on with one. -/
def scanExponent (parts : Parts) (text : List Char) : Scan :=
  match text with
  | 'e' :: '-' :: rest | 'E' :: '-' :: rest => scanPower parts true rest
  | 'e' :: '+' :: rest | 'E' :: '+' :: rest => scanPower parts false rest
  | 'e' :: rest | 'E' :: rest => scanPower parts false rest
  | _ => finish parts text

/-- Reads the fraction, if the text goes on with one, and what follows it. -/
def scanFraction (parts : Parts) : List Char → Scan
  | '.' :: digits =>
    let fraction := digits.takeWhile Char.isDigit
    let rest := digits.dropWhile Char.isDigit
    if fraction.isEmpty then missingDigit rest
    else scanExponent { parts with fraction := some fraction } rest
  | text => scanExponent parts text

/-- Reads a number without its sign; a zero is not followed by further digits. -/
def scanMagnitude (negative : Bool) (text : List Char) : Scan :=
  let integer := text.takeWhile Char.isDigit
  let rest := text.dropWhile Char.isDigit
  if integer.isEmpty then missingDigit rest
  else if integer.head? == some '0' && 1 < integer.length then ⟨.fault (.insideWord .malformed), []⟩
  else scanFraction ⟨negative, integer, none, none⟩ rest

/-- Reads the number at the head of a text that begins with a digit or a minus sign. -/
def scan : List Char → Scan
  | '-' :: rest => scanMagnitude true rest
  | text => scanMagnitude false text

/-- Dropping characters from the head leaves no more than there were. -/
theorem length_dropWhile_le (keep : Char → Bool) (text : List Char) :
    (text.dropWhile keep).length ≤ text.length :=
  (List.dropWhile_sublist keep).length_le

/-- What follows the digits of an exponent is not longer than the text they are read from. -/
theorem scanPower_rest_length (parts : Parts) (negative : Bool) (text : List Char) :
    (scanPower parts negative text).rest.length ≤ text.length := by
  -- The rest is empty or what remains after the digits.
  have dropped := length_dropWhile_le Char.isDigit text
  simp only [scanPower]
  split
  · simp [missingDigit]
  · simpa [finish] using dropped

/-- What follows an exponent is not longer than the text it is read from. -/
theorem scanExponent_rest_length (parts : Parts) (text : List Char) :
    (scanExponent parts text).rest.length ≤ text.length := by
  -- The digits are read from the text without its first one or two characters.
  unfold scanExponent
  split <;>
    first
    | (refine Nat.le_trans (scanPower_rest_length ..) ?_; simp only [List.length_cons]; omega)
    | simp [finish]

/-- What follows a fraction is not longer than the text it is read from. -/
theorem scanFraction_rest_length (parts : Parts) (text : List Char) :
    (scanFraction parts text).rest.length ≤ text.length := by
  -- The exponent is read from the text itself or from what remains after the fraction's digits.
  unfold scanFraction
  split
  · rename_i digits
    have dropped := length_dropWhile_le Char.isDigit digits
    simp only [List.length_cons]
    split
    · simp [missingDigit]
    · exact Nat.le_trans (scanExponent_rest_length ..) (by omega)
  · exact scanExponent_rest_length ..

/-- Reading digits uses up at least one of them, or leaves nothing. -/
theorem scanMagnitude_rest_length (negative : Bool) (text : List Char) :
    (scanMagnitude negative text).rest.length < text.length ∨
      (scanMagnitude negative text).rest = [] := by
  -- A digit that is found does not belong to the rest.
  have whole := congrArg List.length
    (List.takeWhile_append_dropWhile (p := Char.isDigit) (l := text))
  simp only [List.length_append] at whole
  simp only [scanMagnitude]
  split
  · simp [missingDigit]
  · rename_i found
    have found : 0 < (text.takeWhile Char.isDigit).length := by
      simpa [List.isEmpty_iff, List.length_pos_iff] using found
    split
    · simp
    · exact .inl (Nat.lt_of_le_of_lt (scanFraction_rest_length ..) (by omega))

/-- Reading a number uses up at least its first character. -/
theorem scan_rest_length {text : List Char} (nonempty : text ≠ []) :
    (scan text).rest.length < text.length := by
  -- A sign is a character by itself; otherwise a digit is used up or nothing is left.
  have positive := List.length_pos_iff.mpr nonempty
  unfold scan
  split
  · rename_i digits
    rcases scanMagnitude_rest_length true digits with shorter | empty
    · simp only [List.length_cons]; omega
    · simp [empty]
  · rcases scanMagnitude_rest_length false text with shorter | empty
    · exact shorter
    · simpa [empty] using positive

end ApiTypes.JsonNumber

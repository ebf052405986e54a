import ApiTypes.Source

/-!
Quoted strings in JSON text. Passing over a string only needs its end; reading it also needs every
pair of surrogate escapes to be complete.
-/

namespace ApiTypes.JsonString

/-- The characters of a string, and the text after its closing quote. -/
structure Scan where
  read : Except TextFault (List Char)
  after : Except TextFault (List Char)

/-- A string in which the text ends for good. -/
def Scan.broken (fault : TextFault) : Scan := ⟨.error fault, .error fault⟩

/-- The string with one more character in front. -/
def Scan.cons (char : Char) (scan : Scan) : Scan := { scan with read := scan.read.map (char :: ·) }

/-- The string with an incomplete surrogate in front: it cannot be read, but may be passed over. -/
def Scan.spoil (scan : Scan) : Scan := { scan with read := .error .malformed }

/-- The value of a hexadecimal digit. -/
def hexDigit? (char : Char) : Option Nat :=
  if char.isDigit then some (char.toNat - '0'.toNat)
  else if 'a' ≤ char ∧ char ≤ 'f' then some (char.toNat - 'a'.toNat + 10)
  else if 'A' ≤ char ∧ char ≤ 'F' then some (char.toNat - 'A'.toNat + 10)
  else none

/-- The value of four hexadecimal digits. -/
def hexUnit? (first second third fourth : Char) : Option Nat := do
  return (((← hexDigit? first) * 16 + (← hexDigit? second)) * 16 + (← hexDigit? third)) * 16
    + (← hexDigit? fourth)

/-- The character behind a letter after a backslash, apart from Unicode escapes. -/
def shortEscape? (letter : Char) : Option Char :=
  match letter with
  | '"' => some '"'
  | '\\' => some '\\'
  | '/' => some '/'
  | 'b' => some (Char.ofNat 8)
  | 'f' => some (Char.ofNat 12)
  | 'n' => some '\n'
  | 'r' => some '\r'
  | 't' => some '\t'
  | _ => none

/-- Whether a unit is the first of a surrogate pair. -/
def isHighSurrogate (unit : Nat) : Bool := 0xD800 ≤ unit && unit < 0xDC00

/-- Whether a unit is the second of a surrogate pair. -/
def isLowSurrogate (unit : Nat) : Bool := 0xDC00 ≤ unit && unit < 0xE000

/-- The character of a surrogate pair. -/
def ofPair (high low : Nat) : Char :=
  Char.ofNat (0x10000 + (high - 0xD800) * 0x400 + (low - 0xDC00))

/--
The fault of a Unicode escape with fewer than four characters before the end of a text. Its digits
are taken as four bytes, so a text that has as many bytes left goes on and is mistaken.
-/
def shortEscapeFault (rest : List Char) : TextFault :=
  if (String.ofList rest).utf8ByteSize < 4 then .unfinished else .malformed

/-- Reads a string from the text after its opening quote. -/
def scan : List Char → Scan
  | [] => .broken .unfinished
  | '"' :: rest => ⟨.ok [], .ok rest⟩
  | '\\' :: 'u' :: first :: second :: third :: fourth :: rest =>
    match hexUnit? first second third fourth with
    | none => .broken .malformed
    | some unit =>
      if isLowSurrogate unit then (scan rest).spoil
      else if isHighSurrogate unit then
        match rest with
        | [] | ['\\'] => .broken .unfinished
        | '\\' :: 'u' :: lowFirst :: lowSecond :: lowThird :: lowFourth :: more =>
          match hexUnit? lowFirst lowSecond lowThird lowFourth with
          | none => .broken .malformed
          | some low =>
            if isLowSurrogate low then (scan more).cons (ofPair unit low) else (scan more).spoil
        | '\\' :: 'u' :: short => .broken (shortEscapeFault short)
        | more => (scan more).spoil
      else (scan rest).cons (Char.ofNat unit)
  | '\\' :: 'u' :: short => .broken (shortEscapeFault short)
  | '\\' :: letter :: rest =>
    match shortEscape? letter with
    | some char => (scan rest).cons char
    | none => .broken .malformed
  | ['\\'] => .broken .unfinished
  | char :: rest => if char.toNat < 32 then .broken .malformed else (scan rest).cons char
termination_by text => text.length

/-- The text after a string is shorter than the text from which the string was read. -/
theorem scan_after_length {text rest : List Char} (closed : (scan text).after = .ok rest) :
    rest.length < text.length := by
  -- Every step passes on what follows at least one character.
  fun_induction scan text <;>
    simp only [Scan.broken, Scan.cons, Scan.spoil, reduceCtorEq, Except.ok.injEq] at closed <;>
    simp only [closed, forall_const, List.length_cons] at * <;> omega

/-- A string as a leaf of the tree. -/
def Scan.source (scan : Scan) : Source :=
  match scan.read with
  | .ok chars => .scalar (.text (String.ofList chars))
  | .error fault =>
    let skipped := match scan.after with
      | .ok _ => none
      | .error ending => some ending
    .fault { onRead := fault, onSkip := skipped, onName := fault }

end ApiTypes.JsonString

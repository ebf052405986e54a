import ApiTypes.Source.Yaml.Characters

/-!
Scalars that may go on over several lines: words without quotes, and quoted text. Their lines are
folded, so that a single line break counts as a space.
-/

namespace ApiTypes.Yaml

/-- A scalar read from the head of a text. -/
structure Scanned where
  text : String
  /-- How many characters it takes up. -/
  length : Nat
  /-- Whether a line break stands between its last word and the text after it. -/
  endsLine : Bool := false

/-- The blanks and breaks between two words of a scalar, the latest first. -/
inductive Gap where
  | none
  | blanks (chars : List Char)
  /-- The first break, unless it does not count, and those after it. -/
  | breaks (first : Option Char) (more : List Char)

namespace Gap

/-- Whether there is nothing between the words. -/
def isNone : Gap → Bool
  | none => true
  | blanks _ | breaks _ _ => false

/-- Whether a line has ended. -/
def endsLine : Gap → Bool
  | breaks _ _ => true
  | none | blanks _ => false

/-- The gap with one more blank; blanks at the beginning of a line do not count. -/
def addBlank (char : Char) : Gap → Gap
  | none => blanks [char]
  | blanks chars => blanks (char :: chars)
  | breaks first more => breaks first more

/-- The gap with one more break; blanks at the end of a line do not count. -/
def addBreak (char : Char) : Gap → Gap
  | none | blanks _ => breaks (some char) []
  | breaks first more => breaks first (char :: more)

/-- What a gap stands for, the latest character first. -/
def folded : Gap → List Char
  | none => []
  | blanks chars => chars
  | breaks (some '\n') [] => [' ']
  | breaks (some '\n') more => more
  | breaks first more => more ++ first.toList

end Gap

/-- Where a word without quotes stands. -/
structure PlainPlace where
  /-- Whether a bracket is open around it. -/
  inFlow : Bool
  /-- The column that its further lines have to reach. -/
  margin : Nat

namespace PlainPlace

/-- Whether a word that has been interrupted by a gap ends with it. -/
def endsAtGap (place : PlainPlace) (gap : Gap) (column : Nat) (text : List Char) : Bool :=
  !gap.isNone && text.head? == some '#'
    || gap.endsLine && (!place.inFlow && column < place.margin || column = 0 && isMarker text)

/-- Whether a word ends before a text. -/
def endsBefore (place : PlainPlace) : List Char → Bool
  | ':' :: rest => endsWord rest
  | char :: _ => place.inFlow && isFlowIndicator char
  | [] => true

/-- Whether a colon within brackets leaves open if it ends a key. -/
def isAmbiguous (place : PlainPlace) : List Char → Bool
  | ':' :: next :: _ => place.inFlow && (isFlowIndicator next || next == '?')
  | _ => false

end PlainPlace

/-- Reads on in a word without quotes, whose characters so far are given latest first. -/
def scanPlain (place : PlainPlace) (taken : List Char) (gap : Gap) (column length : Nat) :
    List Char → Option Scanned
  | [] => some ⟨String.ofList taken.reverse, length, gap.endsLine⟩
  | char :: rest =>
    if isBlank char then
      if gap.endsLine && column < place.margin && char == '\t' then none
      else scanPlain place taken (gap.addBlank char) (column + 1) (length + 1) rest
    else if isBreak char then
      scanPlain place taken (gap.addBreak char) 0 (length + 1) rest
    else if place.endsAtGap gap column (char :: rest) then
      some ⟨String.ofList taken.reverse, length, gap.endsLine⟩
    else if place.isAmbiguous (char :: rest) then none
    else if place.endsBefore (char :: rest) then
      some ⟨String.ofList taken.reverse, length, gap.endsLine⟩
    else
      scanPlain place (char :: (gap.folded ++ taken)) .none (column + 1) (length + 1) rest

/-- Reads on in text between single quotes, where two quotes stand for one. -/
def scanSingleQuoted (taken : List Char) (gap : Gap) (column length : Nat) :
    List Char → Option Scanned
  | [] => none
  | '\'' :: '\'' :: rest =>
    scanSingleQuoted ('\'' :: (gap.folded ++ taken)) .none (column + 2) (length + 2) rest
  | '\'' :: _ => some { text := String.ofList (gap.folded ++ taken).reverse, length := length + 1 }
  | char :: rest =>
    if isBlank char then
      scanSingleQuoted taken (gap.addBlank char) (column + 1) (length + 1) rest
    else if isBreak char then scanSingleQuoted taken (gap.addBreak char) 0 (length + 1) rest
    else if column = 0 && isMarker (char :: rest) then none
    else
      scanSingleQuoted (char :: (gap.folded ++ taken)) .none (column + 1) (length + 1) rest

/-- The characters that a backslash and a letter stand for. -/
def shortEscapes : List (Char × Char) :=
  [('0', '\x00'), ('a', '\x07'), ('b', '\x08'), ('t', '\t'), ('\t', '\t'), ('n', '\n'),
    ('v', '\x0b'), ('f', '\x0c'), ('r', '\r'), ('e', '\x1b'), (' ', ' '), ('"', '"'), ('/', '/'),
    ('\\', '\\'), ('N', '\u0085'), ('_', '\u00a0'), ('L', '\u2028'), ('P', '\u2029')]

/-- The letters that announce a character's number, with the count of its digits. -/
def longEscapes : List (Char × Nat) := [('x', 2), ('u', 4), ('U', 8)]

/-- The character with a number that is written with a given count of hexadecimal digits. -/
def numberedChar? (count : Nat) (text : List Char) : Option Char := do
  let digits ← (text.take count).mapM hexValue?
  let code := digits.foldl (fun value digit => value * 16 + digit) 0
  if digits.length = count ∧ code.isValidChar then some (Char.ofNat code) else none

/-- What the text after a backslash stands for, and how many characters it takes up. -/
def escaped? : List Char → Option (Char × Nat)
  | [] => none
  | letter :: rest =>
    match shortEscapes.lookup letter with
    | some char => some (char, 1)
    | none => do
      let count ← longEscapes.lookup letter
      let char ← numberedChar? count rest
      return (char, 1 + count)

/--
Reads on in text between double quotes; as many characters as `skip` says belong to an escape that
has been read. An escaped break joins two lines without a space.
-/
def scanDoubleQuoted (taken : List Char) (gap : Gap) (column length skip : Nat) :
    List Char → Option Scanned
  | [] => none
  | char :: rest =>
    match skip with
    | more + 1 => scanDoubleQuoted taken gap (column + 1) (length + 1) more rest
    | 0 =>
      if isBlank char then
        scanDoubleQuoted taken (gap.addBlank char) (column + 1) (length + 1) 0 rest
      else if isBreak char then
        scanDoubleQuoted taken (gap.addBreak char) 0 (length + 1) 0 rest
      else if column = 0 && isMarker (char :: rest) then none
      else if char == '"' then
        some { text := String.ofList (gap.folded ++ taken).reverse, length := length + 1 }
      else if char != '\\' then
        scanDoubleQuoted (char :: (gap.folded ++ taken)) .none (column + 1) (length + 1) 0 rest
      else
        match rest with
        | [] => none
        | next :: after =>
          if isBreak next then
            scanDoubleQuoted (gap.folded ++ taken) (.breaks none []) 0 (length + 2) 0 after
          else
            match escaped? (next :: after) with
            | none => none
            | some (meant, count) =>
              scanDoubleQuoted (meant :: (gap.folded ++ taken)) .none (column + 1) (length + 1)
                count (next :: after)

end ApiTypes.Yaml

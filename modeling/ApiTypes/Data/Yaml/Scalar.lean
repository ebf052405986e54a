import ApiTypes.Source.Yaml.Word

/-!
Texts as YAML scalars: without quotes where nothing else could be meant, and otherwise in the first
form that can hold them.
-/

namespace ApiTypes.Yaml

/-- Whether a text without quotes could be taken for another value. -/
def isAmbiguous (text : String) : Bool :=
  isPaddedNumber text.toList ||
    match meaning? text with
    | some (.text _) => false
    | _ => true

/-- Whether a character can be written as it is. -/
def isPrintable (char : Char) : Bool :=
  let code := char.toNat
  code = 10 || (0x20 ≤ code && code ≤ 0x7E)
    || (0xA0 ≤ code && code ≤ 0xFFFD && code ≠ 0xFEFF) || 0x10000 ≤ code

/-- Whether a character separates words or lines. -/
def isGap (char : Char) : Bool := isBlank char || isBreak char

/-- Whether a character in one class is followed directly by one in another class. -/
def hasPair (first second : Char → Bool) : List Char → Bool
  | left :: right :: rest => first left && second right || hasPair first second (right :: rest)
  | _ => false

/-- Whether a colon ends a word, or a number sign begins one. -/
def hasInnerMark (afterGap : Bool) : List Char → Bool
  | [] => false
  | char :: rest =>
    char == ':' && endsWord rest || char == '#' && afterGap || hasInnerMark (isGap char) rest

/-- Whether a text without quotes could be taken for anything but a scalar. -/
def hasMark (text : List Char) : Bool :=
  let atStart := match text with
    | '-' :: '-' :: '-' :: _ | '.' :: '.' :: '.' :: _ => true
    | char :: rest =>
      ",[]\x7b\x7d&*!|>'\"%@\x60".toList.contains char
        || (char == '?' || char == '-') && endsWord rest
    | [] => false
  atStart || hasInnerMark true text

/-- Whether spaces at the end of a line, or an unprintable character, would get lost in a block. -/
def isFragile (text : List Char) : Bool :=
  !text.all isPrintable || hasPair (· == ' ') isBreak text

/-- The forms that a scalar may have. -/
inductive ScalarStyle where
  | plain
  | singleQuoted
  | doubleQuoted
  | literal

/-- The form of a text: with line breaks a block, if its end is visible, and otherwise one line. -/
def styleOf (text : String) : ScalarStyle :=
  let chars := text.toList
  if chars.contains '\n' then
    if isFragile chars || chars.getLast? == some ' ' then .doubleQuoted else .literal
  else if isFragile chars || hasPair isBreak (· == ' ') chars then .doubleQuoted
  else
    let bounded := [chars.head?, chars.getLast?].any fun char => char.any fun found => found == ' '
    if isAmbiguous text || hasMark chars || bounded || chars.any isBreak then .singleQuoted
    else .plain

/-- Characters with every line after the first, or also that one, moved to a column. -/
def indentLines (column : Nat) (atStart : Bool) : List Char → List Char
  | [] => []
  | char :: rest =>
    if isBreak char then char :: indentLines column true rest
    else
      (if atStart then List.replicate column ' ' else [])
        ++ char :: indentLines column false rest

/-- What the first line of a literal block says about its indentation and its last line breaks. -/
def literalHints (text : List Char) : List Char :=
  let indentation := match text with
    | char :: _ => if char == ' ' || isBreak char then ['2'] else []
    | [] => []
  let chomping := match text.reverse with
    | [last] => if isBreak last then ['+'] else ['-']
    | last :: before :: _ =>
      if !isBreak last then ['-'] else if isBreak before then ['+'] else []
    | [] => ['-']
  indentation ++ chomping

/-- A number with as many hexadecimal digits as given. -/
def hexDigits : Nat → Nat → List Char
  | 0, _ => []
  | count + 1, value => hexDigits count (value / 16) ++ [(Nat.digitChar (value % 16)).toUpper]

/-- The letters for characters in double quotes. -/
def escapeLetters : List (Char × Char) :=
  [('\x00', '0'), ('\x07', 'a'), ('\x08', 'b'), ('\t', 't'), ('\n', 'n'), ('\x0b', 'v'),
    ('\x0c', 'f'), ('\r', 'r'), ('\x1b', 'e'), ('"', '"'), ('\\', '\\'), ('\u0085', 'N'),
    ('\u2028', 'L'), ('\u2029', 'P')]

/-- A character in double quotes. -/
def escape (char : Char) : List Char :=
  if isPrintable char && !isBreak char && char != '"' && char != '\\' then [char]
  else
    match escapeLetters.lookup char with
    | some letter => ['\\', letter]
    | none =>
      let code := char.toNat
      if code ≤ 0xFF then '\\' :: 'x' :: hexDigits 2 code
      else if code ≤ 0xFFFF then '\\' :: 'u' :: hexDigits 4 code
      else '\\' :: 'U' :: hexDigits 8 code

/-- A text as a scalar, whose further lines begin at a column. -/
def scalarText (column : Nat) (text : String) : String :=
  let chars := text.toList
  match styleOf text with
  | .plain => text
  | .singleQuoted =>
    let doubled := chars.flatMap fun char => if char == '\'' then ['\'', '\''] else [char]
    String.ofList ('\'' :: indentLines column false (doubled ++ ['\'']))
  | .doubleQuoted => String.ofList ('"' :: chars.flatMap escape ++ ['"'])
  | .literal =>
    String.ofList ('|' :: literalHints chars ++ '\n' :: indentLines column true chars)

end ApiTypes.Yaml

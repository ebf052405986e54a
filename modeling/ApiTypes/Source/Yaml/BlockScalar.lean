import ApiTypes.Source.Yaml.Scalar

/-!
Scalars written as a block of indented lines. A literal block keeps its line breaks; a folded one
joins neighbouring lines. What becomes of the breaks at the end is said in the block's first line.
-/

namespace ApiTypes.Yaml

/-- A line with the break that ends it; the last line of a text has none. -/
structure Line where
  content : List Char
  ending : Option Char

/-- The lines of a text, the characters of the first one so far given latest first. -/
def linesFrom (current : List Char) : List Char → List Line
  | [] => [⟨current.reverse, none⟩]
  | char :: rest =>
    if isBreak char then ⟨current.reverse, some char⟩ :: linesFrom [] rest
    else linesFrom (char :: current) rest

/-- What becomes of the line breaks at the end of a block. -/
inductive Chomping where
  /-- No break is kept. -/
  | strip
  /-- The break of the last line is kept. -/
  | clip
  /-- All breaks are kept. -/
  | keep
deriving DecidableEq

/-- What the first line of a block says. -/
structure BlockHeader where
  chomping : Chomping := .clip
  /-- How far the block is indented against its surroundings; left to its lines if absent. -/
  indentation : Option Nat := none

namespace BlockHeader

/-- The meaning of a character about the breaks at the end. -/
def chomping? (char : Char) : Option Chomping :=
  if char == '-' then some .strip else if char == '+' then some .keep else none

/-- The meaning of a character about the indentation. -/
def indentation? (char : Char) : Option Nat :=
  if char.isDigit && char != '0' then some (char.toNat - '0'.toNat) else none

/-- The header with one more indicator; none of the two kinds may be repeated. -/
def add? (header : BlockHeader) (char : Char) : Option BlockHeader :=
  match chomping? char, indentation? char with
  | some chomping, _ =>
    if header.chomping = .clip then some { header with chomping := chomping } else none
  | none, some count =>
    if header.indentation.isNone then some { header with indentation := some count } else none
  | none, none => none

/-- Reads the first line of a block, after the character that opens it. -/
def read? (line : List Char) : Option BlockHeader :=
  let indicators := line.takeWhile fun char => !isBlank char && char != '#'
  if isLineOver (line.drop indicators.length) then indicators.foldlM add? {} else none

end BlockHeader

/-- How many spaces a line begins with. -/
def Line.spaces (line : Line) : Nat := (line.content.takeWhile (· == ' ')).length

/-- Whether a line holds nothing but spaces, not more than a block's indentation if it is known. -/
def Line.isEmpty (line : Line) (indentation : Option Nat) : Bool :=
  line.ending.isSome && line.spaces = line.content.length
    && (indentation.all fun limit => line.spaces ≤ limit)

/-- A block as far as it has been read. -/
structure Block where
  /-- The content, latest character first. -/
  taken : List Char := []
  /-- The break after the last line with content. -/
  lastBreak : Option Char := none
  /-- The breaks of the empty lines since then, latest first. -/
  emptyBreaks : List Char := []
  /-- Whether the last line with content began with a blank, as no line does before the first. -/
  wasIndented : Bool := false
  /-- How many characters have been used up. -/
  length : Nat := 0

namespace Block

/-- The block after an empty line. -/
def addEmpty (block : Block) (line : Line) : Block :=
  { block with
    emptyBreaks := line.ending.toList ++ block.emptyBreaks
    length := block.length + line.content.length + line.ending.toList.length }

/-- What stands between two lines with content, latest character first. -/
def join (block : Block) (folds isIndented : Bool) : List Char :=
  if folds && block.lastBreak == some '\n' && !block.wasIndented && !isIndented then
    if block.emptyBreaks.isEmpty then [' '] else block.emptyBreaks
  else block.emptyBreaks ++ block.lastBreak.toList

/-- The block after a line with content. -/
def addLine (block : Block) (folds : Bool) (indentation : Nat) (line : Line) : Block :=
  let content := line.content.drop indentation
  let isIndented := content.head?.any isBlank
  { taken := content.reverse ++ block.join folds isIndented ++ block.taken
    lastBreak := line.ending
    emptyBreaks := []
    wasIndented := isIndented
    length := block.length + line.content.length + line.ending.toList.length }

/-- The text of a block. -/
def text (block : Block) (chomping : Chomping) : String :=
  let kept := match chomping with
    | .strip => []
    | .clip => block.lastBreak.toList
    | .keep => block.emptyBreaks ++ block.lastBreak.toList
  String.ofList (kept ++ block.taken).reverse

/-- Takes lines as long as they reach the indentation; a tab must not stand in its place. -/
def addLines (folds : Bool) (indentation : Nat) (block : Block) : List Line → Option Block
  | [] => some block
  | line :: rest =>
    if line.isEmpty (some indentation) then
      addLines folds indentation (block.addEmpty line) rest
    else if line.spaces < indentation then
      if line.content[line.spaces]? == some '\t' then none
      else some { block with length := block.length + line.spaces }
    else if line.content.length = indentation then
      some { block with length := block.length + indentation }
    else addLines folds indentation (block.addLine folds indentation line) rest

/-- The indentation that the first lines of a block show, at least as much as required. -/
def shownIndentation (required : Nat) (lines : List Line) : Option Nat :=
  let empty := lines.takeWhile (·.isEmpty none)
  let first := lines[empty.length]?
  let greatest := (empty ++ first.toList).foldl (fun depth line => max depth line.spaces) required
  -- Before the indentation is known a tab must not follow the spaces.
  if first.any fun line => line.content[line.spaces]? == some '\t' then none else some greatest

end Block

/--
Reads a block after the character that opens it. The margin is the least column for content of the
surrounding collection, and zero if there is none.
-/
def scanBlock (folds : Bool) (margin : Nat) (text : List Char) : Option Scanned := do
  let first := restOfLine text
  let header ← BlockHeader.read? first
  let lines := (linesFrom [] text).tail
  let indentation ← match header.indentation with
    | some count => some (margin - 1 + count)
    | none => Block.shownIndentation (max margin 1) lines
  let start : Block := { length := min (first.length + 1) text.length }
  let block ← start.addLines folds indentation lines
  return { text := block.text header.chomping, length := block.length }

end ApiTypes.Yaml

import ApiTypes.Source.Yaml.BlockScalar
import ApiTypes.Source.Yaml.Token

/-!
YAML text cut into tokens. Columns open and close lists and records outside of brackets, and what
turns out to be a key is announced by a token that is put in front of it afterwards.
-/

namespace ApiTypes.Yaml

/-- A place where a key may have begun. -/
structure KeyPlace where
  /-- Whether only a key can stand in this place. -/
  isRequired : Bool
  /-- How many tokens come before it. -/
  position : Nat
  line : Nat
  column : Nat
  /-- How many bytes come before it. -/
  offset : Nat

/-- What has been cut off a text so far. -/
structure Cutting where
  /-- The tokens, latest first. -/
  tokens : List Token := []
  /-- How many tokens there are. -/
  count : Nat := 0
  line : Nat := 0
  column : Nat := 0
  /-- How many bytes have been dealt with. -/
  offset : Nat := 0
  /-- The columns of the open block collections, innermost first. -/
  columns : List Nat := []
  /-- Whether a key or an item may begin at the current place. -/
  keyAllowed : Bool := true
  /-- Where a key may have begun within the innermost bracket. -/
  keyPlace : Option KeyPlace := none
  /-- Where keys may have begun around each open bracket, innermost first. -/
  outerKeyPlaces : List (Option KeyPlace) := []

namespace Cutting

/-- Whether a bracket is open. -/
def inFlow (cutting : Cutting) : Bool := !cutting.outerKeyPlaces.isEmpty

/-- The least column for content of the innermost block collection. -/
def margin (cutting : Cutting) : Nat :=
  match cutting.columns with
  | [] => 0
  | column :: _ => column + 1

/-- The place after one more character. -/
def advance (cutting : Cutting) (char : Char) : Cutting :=
  let offset := cutting.offset + char.utf8Size
  if isBreak char then { cutting with line := cutting.line + 1, column := 0, offset := offset }
  else { cutting with column := cutting.column + 1, offset := offset }

/-- Adds a token. -/
def push (cutting : Cutting) (token : Token) : Cutting :=
  { cutting with tokens := token :: cutting.tokens, count := cutting.count + 1 }

/-- How many bytes a key may have. -/
def keyReach : Nat := 1024

/-- Whether the text after a place may still turn what begins there into a key. -/
def isOpen (cutting : Cutting) (place : KeyPlace) : Bool :=
  place.line = cutting.line && cutting.offset ≤ place.offset + keyReach

/-- Gives up the place for a key, which must not be required. -/
def dropKey (cutting : Cutting) : Option Cutting :=
  if cutting.keyPlace.any fun found => found.isRequired then none
  else some { cutting with keyPlace := none }

/--
Gives up the place for a key if it is out of reach. A place around an open bracket stays out of
reach once it is, so it can wait until the bracket is closed.
-/
def expireKey (cutting : Cutting) : Option Cutting :=
  if cutting.keyPlace.all cutting.isOpen then some cutting else cutting.dropKey

/-- Notes that a key may begin at the current place, if one is allowed. -/
def noteKey (cutting : Cutting) : Option Cutting :=
  if cutting.keyAllowed then do
    let cutting ← cutting.dropKey
    return { cutting with
      keyPlace := some
        { isRequired := !cutting.inFlow && cutting.columns.head? == some cutting.column
          position := cutting.count
          line := cutting.line
          column := cutting.column
          offset := cutting.offset } }
  else some cutting

/-- Closes the block collections that stand to the right of a column, or all of them. -/
def closeBlocks (cutting : Cutting) (column : Option Nat) : Cutting :=
  if cutting.inFlow then cutting
  else
    let isInside (opened : Nat) : Bool := column.all fun limit => limit < opened
    let closed := cutting.columns.takeWhile isInside
    { cutting with
      tokens := closed.map (fun _ => Token.closeBlock) ++ cutting.tokens
      count := cutting.count + closed.length
      columns := cutting.columns.dropWhile isInside }

/-- Whether something at a column opens a block collection inside the innermost one. -/
def opensAt (cutting : Cutting) (column : Nat) : Bool :=
  !cutting.inFlow && cutting.margin ≤ column

/-- Opens a block collection at the current column, unless one is open there. -/
def openBlock (cutting : Cutting) (token : Token) : Cutting :=
  if cutting.opensAt cutting.column then
    { cutting.push token with columns := cutting.column :: cutting.columns }
  else cutting

/-- Begins an entry of a block collection with a mark, which is only allowed where a key is. -/
def mark (cutting : Cutting) (opening token : Token) : Option Cutting := do
  let opened ←
    if cutting.inFlow then some cutting
    else if cutting.keyAllowed then some (cutting.openBlock opening)
    else none
  let dropped ← opened.dropKey
  return dropped.push token

/-- The dash before an item. -/
def addEntry (cutting : Cutting) : Option Cutting := do
  let marked ← cutting.mark .openBlockList .entry
  return { marked with keyAllowed := true }

/-- The question mark before a key. -/
def addKey (cutting : Cutting) : Option Cutting := do
  let marked ← cutting.mark .openBlockRecord .key
  return { marked with keyAllowed := !cutting.inFlow }

/-- The colon after a key. What may have been a key is one, and may open a record. -/
def addValue (cutting : Cutting) : Option Cutting :=
  match cutting.keyPlace with
  | some place =>
    let opens := cutting.opensAt place.column
    let later := cutting.tokens.take (cutting.count - place.position)
    let announced := Token.key :: (if opens then [Token.openBlockRecord] else [])
    some { cutting with
      tokens := Token.value :: later ++ announced ++ cutting.tokens.drop later.length
      count := cutting.count + announced.length + 1
      columns := if opens then place.column :: cutting.columns else cutting.columns
      keyPlace := none
      keyAllowed := false }
  | none => do
    let marked ← cutting.mark .openBlockRecord .value
    return { marked with keyAllowed := !cutting.inFlow }

/-- The bracket that opens a collection, which may be a key as a whole. -/
def openFlow (cutting : Cutting) (token : Token) : Option Cutting := do
  let noted ← cutting.noteKey
  return { noted.push token with
    keyAllowed := true
    keyPlace := none
    outerKeyPlaces := noted.keyPlace :: noted.outerKeyPlaces }

/-- The bracket that closes a collection. -/
def closeFlow (cutting : Cutting) (token : Token) : Option Cutting := do
  let dropped ← cutting.dropKey
  return { dropped.push token with
    keyAllowed := false
    keyPlace := dropped.outerKeyPlaces.head?.getD none
    outerKeyPlaces := dropped.outerKeyPlaces.tail }

/-- The comma between entries in brackets. -/
def addComma (cutting : Cutting) : Option Cutting := do
  let dropped ← cutting.dropKey
  return { dropped.push .comma with keyAllowed := true }

/-- A declaration about a document or a mark between documents, which closes all that is open. -/
def addMarker (cutting : Cutting) (token : Token) : Option Cutting := do
  let dropped ← (cutting.closeBlocks none).dropKey
  return { dropped.push token with keyAllowed := false }

/-- A scalar, or a mark at a node; a key may begin with it. -/
def addNode (cutting : Cutting) (token : Token) (keyAllowed : Bool) : Option Cutting := do
  let noted ← cutting.noteKey
  return { noted.push token with keyAllowed := keyAllowed }

/-- A scalar that begins with the quote that has just been read. -/
def addQuoted (cutting : Cutting) (scanned : Option Scanned) : Option (Cutting × Nat) := do
  let scalar ← scanned
  let added ← cutting.addNode (.scalar scalar.text .quoted) false
  return (added, scalar.length + 1)

/-- A scalar written as a block, which stands outside of brackets. -/
def addBlock (cutting : Cutting) (folds : Bool) (text : List Char) : Option (Cutting × Nat) := do
  if cutting.inFlow then none
  let scalar ← scanBlock folds cutting.margin text
  let dropped ← cutting.dropKey
  let token : Token := .scalar scalar.text (if folds then .quoted else .literal)
  return ({ dropped.push token with keyAllowed := true }, scalar.length + 1)

/-- Whether a word without quotes begins at a character that may also be a mark. -/
def startsPlain (cutting : Cutting) (char : Char) (rest : List Char) : Bool :=
  if char == '-' then true
  else if char == '?' || char == ':' then !cutting.inFlow && !endsWord rest
  else !isBlank char && !isFlowIndicator char && !"#&*!|>'\"%@\x60".toList.contains char

/-- A word without quotes. -/
def addPlain (cutting : Cutting) (text : List Char) : Option (Cutting × Nat) := do
  let place : PlainPlace := ⟨cutting.inFlow, cutting.margin⟩
  let scalar ← scanPlain place [] .none cutting.column 0 text
  let added ← cutting.addNode (.scalar scalar.text .plain) scalar.endsLine
  return (added, scalar.length)

/-- Whether a dash, question mark or colon is a mark and not part of a word. -/
def isMark (cutting : Cutting) (char : Char) (rest : List Char) : Bool :=
  endsWord rest || (char != '-' && cutting.inFlow)

/-- Cuts off the token at the current place, and says how many characters it takes up. -/
def addToken (cutting : Cutting) (char : Char) (rest : List Char) : Option (Cutting × Nat) := do
  let alive ← cutting.expireKey
  let cutting := alive.closeBlocks (some alive.column)
  let text := char :: rest
  let single (added : Option Cutting) : Option (Cutting × Nat) := added.map fun next => (next, 1)
  -- Directives and document markers stand at the beginning of a line only.
  if cutting.column = 0 && char == '%' then
    let scanned ← scanDirective rest
    return (← cutting.addMarker scanned.token, scanned.length + 1)
  else if cutting.column = 0 && startsDocument text then
    return (← cutting.addMarker .documentStart, 3)
  else if cutting.column = 0 && endsDocument text then
    return (← cutting.addMarker .documentEnd, 3)
  -- A dash, a question mark or a colon is an indicator only where a blank follows.
  else if char == '-' && cutting.isMark char rest then single cutting.addEntry
  else if char == '?' && cutting.isMark char rest then single cutting.addKey
  else if char == ':' && cutting.isMark char rest then single cutting.addValue
  else match char with
    | '[' => single (cutting.openFlow .openList)
    | '\x7b' => single (cutting.openFlow .openRecord)
    | ']' => single (cutting.closeFlow .closeList)
    | '\x7d' => single (cutting.closeFlow .closeRecord)
    | ',' => single cutting.addComma
    | '*' => do
      let name ← scanName rest
      return (← cutting.addNode (.alias name.text) false, name.length + 1)
    | '&' => do
      let name ← scanName rest
      return (← cutting.addNode (.anchor name.text) false, name.length + 1)
    | '!' => do
      let scanned ← scanTag cutting.inFlow rest
      return (← cutting.addNode scanned.token false, scanned.length + 1)
    | '|' => cutting.addBlock false rest
    | '>' => cutting.addBlock true rest
    | '\'' => cutting.addQuoted (scanSingleQuoted [] .none (cutting.column + 1) 0 rest)
    | '"' => cutting.addQuoted (scanDoubleQuoted [] .none (cutting.column + 1) 0 0 rest)
    -- Whatever no indicator claims may be the beginning of a plain scalar.
    | _ => if cutting.startsPlain char rest then cutting.addPlain text else none

/-- Whether nothing is said by a character between tokens. A byte order mark may begin a line. -/
def passesOver (cutting : Cutting) (char : Char) : Bool :=
  char == ' ' || (char == '\t' && (cutting.inFlow || !cutting.keyAllowed))
    || (char == '\ufeff' && cutting.column = 0)

/-- Passes over a blank, a comment or a break, or cuts off a token. -/
def step (cutting : Cutting) (char : Char) (rest : List Char) : Option (Cutting × Nat) :=
  if cutting.passesOver char then some (cutting, 1)
  else if char == '#' then some (cutting, (restOfLine rest).length + 1)
  else if isBreak char then
    some ({ cutting with keyAllowed := cutting.keyAllowed || !cutting.inFlow }, 1)
  else cutting.addToken char rest

/-- Closes what is open at the end of the text. -/
def finish (cutting : Cutting) : Option (List Token) := do
  let closed ← (cutting.closeBlocks none).dropKey
  return closed.tokens.reverse

/-- Cuts the rest of a text, of which as many characters as `skip` says have been dealt with. -/
def run (cutting : Cutting) (skip : Nat) : List Char → Option (List Token)
  | [] => cutting.finish
  | char :: rest =>
    match skip with
    | more + 1 => run (cutting.advance char) more rest
    | 0 =>
      match cutting.step char rest with
      | none => none
      | some (next, length) => run (next.advance char) (length - 1) rest

end Cutting

/-- The tokens of a text whose breaks are unified. -/
def tokens? (text : List Char) : Option (List Token) := Cutting.run {} 0 text

end ApiTypes.Yaml

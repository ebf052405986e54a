import ApiTypes.Source.Yaml.Scalar
import ApiTypes.Source.Yaml.Word

/-! The parts of YAML text, and the reading of those that a mark announces on one line. -/

namespace ApiTypes.Yaml

/-- The kind of value that is marked at a node, as written: a handle and what follows it. -/
structure TagName where
  handle : String
  suffix : String

/-- The parts into which a text is cut. -/
inductive Token where
  /-- The version that a document declares. -/
  | version (major minor : Nat)
  /-- The beginning that a handle stands for in the tags of a document. -/
  | handle (name beginning : String)
  | documentStart
  | documentEnd
  /-- The first column of a list whose items are marked by dashes. -/
  | openBlockList
  /-- The first column of a record whose members stand in lines. -/
  | openBlockRecord
  /-- The end of the innermost list or record that has been opened by its column. -/
  | closeBlock
  | openList
  | closeList
  | openRecord
  | closeRecord
  /-- The dash before an item. -/
  | entry
  | comma
  /-- What follows is a key. -/
  | key
  /-- What follows is the value of a key. -/
  | value
  | alias (name : String)
  | anchor (name : String)
  | tag (name : TagName)
  | scalar (text : String) (style : WordStyle)

/-- A token read from the head of a text, and how many characters it takes up. -/
structure ScannedToken where
  token : Token
  length : Nat

/-- Reads a name for a place in the text, after the character that announces it. -/
def scanName (text : List Char) : Option Scanned :=
  let name := text.takeWhile isNameChar
  let after := text.drop name.length
  let ends := endsWord after || after.head?.any fun char => "?:,]\x7d%@\x60".toList.contains char
  if name.isEmpty || !ends then none
  else some { text := String.ofList name, length := name.length }

/-- Whether a character may stand in a tag; in angle brackets more may. -/
def isTagChar (inAngles : Bool) (char : Char) : Bool :=
  isNameChar char || ";/?:@&=+$.!~*'()%".toList.contains char
    || inAngles && ",[]".toList.contains char

/-- The bytes of a text in which a percent sign announces a byte by its number. -/
def unescapedBytes : List Char → Option (List UInt8)
  | [] => some []
  | '%' :: high :: low :: rest => do
    let byte := (← hexValue? high) * 16 + (← hexValue? low)
    return UInt8.ofNat byte :: (← unescapedBytes rest)
  | char :: rest => if char == '%' then none else
    (unescapedBytes rest).map (UInt8.ofNat char.toNat :: ·)

/-- Reads part of a tag, which may be empty. -/
def scanTagText (inAngles : Bool) (text : List Char) : Option Scanned := do
  let chars := text.takeWhile (isTagChar inAngles)
  let bytes ← unescapedBytes chars
  let unescaped ← String.fromUTF8? ⟨bytes.toArray⟩
  return { text := unescaped, length := chars.length }

/-- The handle of a tag, whose exclamation mark has been read, if a second one ends it. -/
def handle? (text : List Char) : Option Scanned :=
  let name := text.takeWhile isNameChar
  if text[name.length]? == some '!' then
    some { text := String.ofList ('!' :: name ++ ['!']), length := name.length + 1 }
  else none

/-- Reads a tag after its exclamation mark. -/
def scanTagName (text : List Char) : Option (TagName × Nat) := do
  if text.head? == some '<' then
    let name ← scanTagText true text.tail
    if name.length = 0 || text[name.length + 1]? != some '>' then none
    else return (⟨"", name.text⟩, name.length + 2)
  else
    match handle? text with
    | some handle =>
      let suffix ← scanTagText false (text.drop handle.length)
      if suffix.length = 0 then none
      else return (⟨handle.text, suffix.text⟩, handle.length + suffix.length)
    | none =>
      let suffix ← scanTagText false text
      -- An exclamation mark by itself only says that the scalar has no other tag.
      if suffix.length = 0 then return (⟨"", "!"⟩, 0)
      else return (⟨"!", suffix.text⟩, suffix.length)

/-- Reads a tag that is marked at a node; it ends with the word, or before a comma in brackets. -/
def scanTag (inFlow : Bool) (text : List Char) : Option ScannedToken := do
  let (name, length) ← scanTagName text
  let after := text.drop length
  if endsWord after || inFlow && after.head? == some ',' then return ⟨.tag name, length⟩ else none

/-- Reads a version of the form major, point, minor; a number has at most nine digits. -/
def scanVersion (text : List Char) : Option ScannedToken :=
  let major := text.takeWhile Char.isDigit
  let minor := (text.drop (major.length + 1)).takeWhile Char.isDigit
  let sized (digits : List Char) : Bool := !digits.isEmpty && digits.length ≤ 9
  let number (digits : List Char) : Nat := (String.ofList digits).toNat?.getD 0
  if sized major && text[major.length]? == some '.' && sized minor then
    some ⟨.version (number major) (number minor), major.length + 1 + minor.length⟩
  else none

/-- Reads the handle of a tag and the beginning that it stands for. -/
def scanHandle (text : List Char) : Option ScannedToken := do
  if text.head? != some '!' then none
  let name := (handle? text.tail).getD { text := "!", length := 0 }
  let after := text.drop (name.length + 1)
  let blanks := (after.takeWhile isBlank).length
  let beginning ← scanTagText true (after.drop blanks)
  let length := name.length + 1 + blanks + beginning.length
  if blanks = 0 || beginning.length = 0 || !endsWord (text.drop length) then none
  else return ⟨.handle name.text beginning.text, length⟩

/-- Reads a declaration about a document after its percent sign, together with the line's end. -/
def scanDirective (text : List Char) : Option ScannedToken := do
  let line := restOfLine text
  let name := line.takeWhile isNameChar
  let blanks := ((line.drop name.length).takeWhile isBlank).length
  let content := line.drop (name.length + blanks)
  let found ← match String.ofList name with
    | "YAML" => scanVersion content
    | "TAG" => scanHandle content
    | _ => none
  if blanks ≠ 0 && isLineOver (content.drop found.length) then
    return ⟨found.token, min text.length (line.length + 1)⟩
  else none

end ApiTypes.Yaml

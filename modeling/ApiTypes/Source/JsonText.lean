import ApiTypes.Source.JsonNumber
import ApiTypes.Source.JsonString

/-! JSON text as a tree: the text is cut into tokens, and the tokens are nested by a stack. -/

namespace ApiTypes.JsonText

/-- The parts into which a text is cut. -/
inductive Token where
  /-- A literal word, a number, or a place where no token begins. -/
  | atom (value : Source)
  /-- A string in quotes, which may stand as a key as well. -/
  | quoted (value : Source)
  | openList
  | closeList
  | openRecord
  | closeRecord
  | comma
  | colon

/-- The fault of a literal word that differs from the expected letters or ends before them. -/
def wordFault : List Char → List Char → TextFault
  | _ :: _, [] => .unfinished
  | expected :: more, char :: rest => if expected = char then wordFault more rest else .malformed
  | [], _ => .malformed

/-- A literal word that breaks off somewhere after its first letter. -/
def brokenWord (expected text : List Char) : Source :=
  .fault (.insideWord (wordFault expected text))

/-- Whether a character separates tokens without being one. -/
def isBlank (char : Char) : Bool := char == ' ' || char == '\t' || char == '\n' || char == '\r'

/-- Cuts a text into tokens. After a place where the text breaks off no token follows. -/
def tokens : List Char → List Token
  | [] => []
  | '[' :: rest => .openList :: tokens rest
  | ']' :: rest => .closeList :: tokens rest
  | '\x7b' :: rest => .openRecord :: tokens rest
  | '\x7d' :: rest => .closeRecord :: tokens rest
  | ',' :: rest => .comma :: tokens rest
  | ':' :: rest => .colon :: tokens rest
  | '"' :: rest =>
    let scan := JsonString.scan rest
    .quoted scan.source ::
      match closed : scan.after with
      | .ok more =>
        have : more.length < rest.length := JsonString.scan_after_length closed
        tokens more
      | .error _ => []
  | 't' :: 'r' :: 'u' :: 'e' :: rest => .atom (.scalar (.bool true)) :: tokens rest
  | 'f' :: 'a' :: 'l' :: 's' :: 'e' :: rest => .atom (.scalar (.bool false)) :: tokens rest
  | 'n' :: 'u' :: 'l' :: 'l' :: rest => .atom (.scalar .null) :: tokens rest
  | 't' :: rest => [.atom (brokenWord ['r', 'u', 'e'] rest)]
  | 'f' :: rest => [.atom (brokenWord ['a', 'l', 's', 'e'] rest)]
  | 'n' :: rest => [.atom (brokenWord ['u', 'l', 'l'] rest)]
  | char :: rest =>
    if isBlank char then tokens rest
    else if char == '-' || char.isDigit then
      match read : JsonNumber.scan (char :: rest) with
      | ⟨source, more⟩ =>
        have : more.length < rest.length + 1 := by
          simpa [read] using JsonNumber.scan_rest_length (List.cons_ne_nil char rest)
        .atom source :: tokens more
    else [.atom (.fault (.insideWord .malformed))]
termination_by text => text.length

/-- A collection whose end has not been reached; its parts are held in reverse. -/
inductive Frame where
  | list (items : List Source)
  /-- A record, with the key whose value is being read if there is one. -/
  | record (members : List (Source × Source)) (key : Option Source)

/-- The frame with one more part. A record without a pending key breaks off at a key. -/
def Frame.put (value : Source) : Frame → Frame
  | .list items => .list (value :: items)
  | .record members (some key) => .record ((key, value) :: members) none
  | .record members none => .record ((value, value) :: members) none

/-- The collection that a frame holds. -/
def Frame.close : Frame → Source
  | .list items => .list items.reverse
  | .record members _ => .record members.reverse

/-- What may come next. -/
inductive Expected where
  | value
  | valueOrClose
  | key
  | keyOrClose
  | colon
  | commaOrClose
deriving DecidableEq

/-- How far the nesting of tokens has come. -/
inductive Progress where
  | reading (expected : Expected) (stack : List Frame)
  | finished (root : Source)
  | stopped (text : SourceText)

namespace Progress

/-- Places a complete value in the innermost collection, or makes it the root. -/
def put (value : Source) : List Frame → Progress
  | [] => finished value
  | frame :: outer => reading .commaOrClose (frame.put value :: outer)

/-- The tree whose last part stands at the current place. -/
def cut (last : Source) (stack : List Frame) : SourceText :=
  ⟨stack.foldl (fun inner frame => (frame.put inner).close) last, none⟩

/-- Breaks the tree off at the current place because of a token that may not stand there. -/
def reject (stack : List Frame) : Progress := stopped (cut (.fault (.ending .malformed)) stack)

/-- Starts a value with a token; a token that starts none breaks the tree off. -/
def startValue (stack : List Frame) : Token → Progress
  | .atom value | .quoted value => put value stack
  | .openList => reading .valueOrClose (.list [] :: stack)
  | .openRecord => reading .keyOrClose (.record [] none :: stack)
  | _ => reject stack

/-- What a token begins that stands in the place of a key. -/
def misplaced : Token → Source
  | .atom value | .quoted value => value
  | .openList => .list []
  | .openRecord => .record []
  | _ => .fault (.ending .malformed)

/-- Reads a key with a token; only a string in quotes is one. -/
def startKey : List Frame → Token → Progress
  | .record members _ :: outer, .quoted key =>
    reading .colon (.record members (some key) :: outer)
  | stack, token => stopped (cut (.misplaced (misplaced token)) stack)

/-- Goes on with one token. -/
def step : Progress → Token → Progress
  | stopped text, _ => stopped text
  | finished root, _ => stopped ⟨root, some .malformed⟩
  | reading .value stack, token => startValue stack token
  | reading .valueOrClose (.list items :: outer), .closeList => put (.list items.reverse) outer
  | reading .valueOrClose stack, token => startValue stack token
  | reading .keyOrClose (.record members _ :: outer), .closeRecord =>
    put (.record members.reverse) outer
  | reading .keyOrClose stack, token => startKey stack token
  | reading .key stack, token => startKey stack token
  | reading .colon stack, .colon => reading .value stack
  | reading .commaOrClose (.list items :: outer), .comma => reading .value (.list items :: outer)
  | reading .commaOrClose (.list items :: outer), .closeList => put (.list items.reverse) outer
  | reading .commaOrClose (.record members key :: outer), .comma =>
    reading .key (.record members key :: outer)
  | reading .commaOrClose (.record members _ :: outer), .closeRecord =>
    put (.record members.reverse) outer
  | reading _ stack, _ => reject stack

/-- The tree once the tokens are used up. -/
def result : Progress → SourceText
  | stopped text => text
  | finished root => ⟨root, none⟩
  | reading .commaOrClose stack => cut (.fault .unclosed) stack
  | reading _ stack => cut (.fault (.ending .unfinished)) stack

end Progress

/-- Collections may be nested this deep where they are read. -/
def depthLimit : Nat := 127

/-- JSON text as a tree. -/
def read (text : String) : SourceText :=
  let whole := ((tokens text.toList).foldl Progress.step (.reading .value [])).result
  { whole with root := whole.root.limitDepth depthLimit }

end ApiTypes.JsonText

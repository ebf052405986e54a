import ApiTypes.Source.Yaml.Collection
import ApiTypes.Source.Yaml.Tokens

/-!
The node that tokens stand for, and YAML text as a tree. Open collections form a stack, and every token
completes what is left out before it, then adds to the innermost collection, opens another one, or closes
it.
-/

namespace ApiTypes.Yaml

/-- What is marked at a node before it begins. -/
structure Properties where
  /-- The number of the node. -/
  number : Option Nat := none
  tag : Option TagName := none

/-- Whether nothing is marked. -/
def Properties.isEmpty (properties : Properties) : Bool :=
  properties.number.isNone && properties.tag.isNone

/-- A node with its number, if one is marked. -/
def Properties.numbered (properties : Properties) (node : Node) : Node :=
  match properties.number with
  | some number => .numbered number node
  | none => node

/-- An open collection with what is marked at it. -/
structure Level where
  collection : Collection
  properties : Properties

/-- The state of building a node. -/
structure Building where
  /-- The beginnings that the handles of tags stand for. -/
  handles : List (String × String)
  /-- The open collections, innermost first. -/
  levels : List Level := []
  /-- What is marked at the node that follows. -/
  properties : Properties := {}
  /-- The names of nodes so far, each with the number that it stands for. -/
  numbers : List (String × Nat) := []
  root : Option Node := none

namespace Building

/-- Puts a complete node in its place. -/
def place (building : Building) (node : Node) : Option Building :=
  match building.levels with
  | [] => if building.root.isSome then none else some { building with root := some node }
  | level :: outer => do
    let collection ← level.collection.place node
    return { building with levels := { level with collection := collection } :: outer }

/--
Gives a name to the node that follows. Its number is the count of different names before it, so a
name that is given again may share its number with the next new name.
-/
def addAnchor (building : Building) (name : String) : Building :=
  let number := building.numbers.length
  { building with
    properties := { building.properties with number := some number }
    numbers := (name, number) :: building.numbers.filter fun found => found.1 != name }

/-- The full name of a tag; absent if its handle has not been declared. -/
def tagName? (building : Building) (tag : TagName) : Option String :=
  if tag.handle.isEmpty then some tag.suffix
  else (building.handles.lookup tag.handle).map fun beginning => beginning ++ tag.suffix

/-- Adds a scalar with what is marked at it. -/
def addScalar (building : Building) (text : String) (style : WordStyle) : Option Building := do
  let tag ← building.properties.tag.mapM building.tagName?
  let node := building.properties.numbered (.word { text, style, tag })
  { building with properties := {} }.place node

/-- Adds a scalar of which nothing is written. -/
def addEmpty (building : Building) : Option Building := building.addScalar "" .plain

/-- Repeats a node by the name that has been given to it. -/
def repeatNode (building : Building) (name : String) : Option Building := do
  building.place (.repetition (← building.numbers.lookup name))

/-- Opens a collection with what is marked at it. -/
def openCollection (building : Building) (collection : Collection) : Building :=
  { building with
    levels := ⟨collection, building.properties⟩ :: building.levels
    properties := {} }

/-- Closes the innermost collection, which a tag may mark as a value of a foreign type. -/
def close (building : Building) : Option Building :=
  match building.levels with
  | [] => none
  | ⟨collection, properties⟩ :: outer => do
    let tag ← properties.tag.mapM building.tagName?
    let isForeign := tag.any fun name => name.startsWith "!"
    let node := if isForeign then .foreign collection.toNode else collection.toNode
    { building with levels := outer }.place (properties.numbered node)

/-- Whether a token begins a node that may have something marked at it. -/
def isContent (building : Building) : Token → Bool
  | .scalar _ _ | .openList | .openRecord | .openBlockList | .openBlockRecord => true
  | .entry => building.levels.head?.any fun level => level.collection.admitsLevelList
  | .anchor _ => building.properties.number.isNone
  | .tag _ => building.properties.tag.isNone
  | _ => false

/-- Completes a node that has been announced, if a token shows that it is left out. -/
def completeNode (building : Building) (token : Token) : Option Building := do
  let completed ←
    if !building.properties.isEmpty && !building.isContent token then building.addEmpty
    else some building
  if completed.levels.head?.any fun level => level.collection.isLeftOutBefore token then
    completed.addEmpty
  else some completed

/-- Closes a list in the column of the record around it, if a token shows that it has ended. -/
def completeLevelList (building : Building) (token : Token) : Option Building :=
  match building.levels.head?, token with
  | some ⟨⟨.levelList, _, .between⟩, _⟩, .entry => some building
  | some ⟨⟨.levelList, _, .between⟩, _⟩, _ => building.close
  | _, _ => some building

/-- Completes a key, if a token shows that its value is left out. -/
def completeKey (building : Building) (token : Token) : Option Building :=
  match building.levels, token with
  | ⟨⟨_, _, .afterKey _⟩, _⟩ :: _, .value => some building
  | ⟨⟨form, entries, .afterKey key⟩, properties⟩ :: outer, _ =>
    let collection : Collection := ⟨form, entries, .value key⟩
    { building with levels := ⟨collection, properties⟩ :: outer }.addEmpty
  | _, _ => some building

/-- Changes what the innermost collection waits for. -/
def setStage (building : Building) (stage : Stage) : Option Building :=
  match building.levels with
  | [] => none
  | level :: outer =>
    some { building with
      levels := { level with collection := { level.collection with stage := stage } } :: outer }

/-- Adds a dash, which announces an item. -/
def addEntry (building : Building) : Option Building :=
  match building.levels.head? with
  | none => none
  | some level =>
    match level.collection.form, level.collection.stage with
    | .blockList, .between | .levelList, .between => building.setStage .item
    | .blockRecord, .key | .blockRecord, .value _ =>
      some (building.openCollection { form := .levelList, stage := .item })
    | _, _ => none

/-- Adds the mark before a key. -/
def addKey (building : Building) : Option Building :=
  match building.levels.head? with
  | none => none
  | some level =>
    match level.collection.form, level.collection.stage with
    | .blockRecord, .between | .flowRecord, .between | .flowList, .between =>
      building.setStage .key
    | _, _ => none

/-- Adds the mark before a value. -/
def addValue (building : Building) : Option Building :=
  match building.levels.head? with
  | none => none
  | some level =>
    match level.collection.stage with
    | .afterKey key => building.setStage (.value key)
    | _ => none

/-- Adds the mark between two entries in brackets. -/
def addComma (building : Building) : Option Building :=
  match building.levels.head? with
  | none => none
  | some level =>
    match level.collection.stage with
    | .complete => building.setStage .between
    | _ => none

/-- Adds a token to what is complete before it. -/
def addToken (building : Building) : Token → Option Building
  | .scalar text style => building.addScalar text style
  | .alias name => building.repeatNode name
  | .anchor name => some (building.addAnchor name)
  | .tag name => some { building with properties := { building.properties with tag := some name } }
  | .openBlockList => some (building.openCollection { form := .blockList })
  | .openBlockRecord => some (building.openCollection { form := .blockRecord })
  | .openList => some (building.openCollection { form := .flowList })
  | .openRecord => some (building.openCollection { form := .flowRecord })
  | .entry => building.addEntry
  | .key => building.addKey
  | .value => building.addValue
  | .comma => building.addComma
  | token =>
    if building.levels.head?.any fun level => level.collection.isClosedBy token then building.close
    else none

/-- The state after one more token. -/
def step (building : Building) (token : Token) : Option Building :=
  let swallows :=
    building.levels.head?.any fun level => level.collection.isKeyLeftOutBy token
  if building.properties.isEmpty && swallows then building.addEmpty
  else do
    let node ← building.completeNode token
    let list ← node.completeLevelList token
    let key ← list.completeKey token
    key.addToken token

/-- The node of a whole document. -/
def finish (building : Building) : Option Node := do
  let completed ← building.completeNode .documentEnd
  if completed.levels.isEmpty then completed.root else none

end Building

/-- The handles that need no declaration. -/
def knownHandles : List (String × String) := [("!", "!"), ("!!", BasicType.tagBeginning)]

/-- The declarations of a document; each may be made once, and only two versions are known. -/
def declare (handles : List (String × String)) (versionKnown : Bool) :
    List Token → Option (List (String × String))
  | [] => some (handles ++ knownHandles)
  | .version major minor :: rest =>
    if versionKnown || major ≠ 1 || (minor ≠ 1 && minor ≠ 2) then none
    else declare handles true rest
  | .handle name beginning :: rest =>
    if (handles.lookup name).isSome then none
    else declare ((name, beginning) :: handles) versionKnown rest
  | _ :: _ => none

/-- Whether a token is a declaration about a document. -/
def Token.isDirective : Token → Bool
  | .version _ _ | .handle _ _ => true
  | _ => false

/-- Whether a token belongs to the content of a document. -/
def Token.isContent : Token → Bool
  | .version _ _ | .handle _ _ | .documentStart | .documentEnd => false
  | _ => true

/-- Whether a token marks the end of a document. -/
def Token.isEnd : Token → Bool
  | .documentEnd => true
  | _ => false

/--
The node of the only document among tokens. A mark opens it if there are declarations, and nothing
follows it but marks of its end.
-/
def documentNode? (tokens : List Token) : Option Node := do
  let directives := tokens.takeWhile Token.isDirective
  let rest := tokens.dropWhile Token.isDirective
  let handles ← declare [] false directives
  let (marked, body) := match rest with
    | .documentStart :: body => (true, body)
    | _ => (false, rest)
  let content := body.takeWhile Token.isContent
  let after := body.dropWhile Token.isContent
  if (!directives.isEmpty && !marked) || !after.all Token.isEnd then none
  else if content.isEmpty then
    if marked || after.isEmpty then return .leftOut else none
  else
    let building ← content.foldlM Building.step { handles }
    building.finish

end ApiTypes.Yaml

namespace ApiTypes.YamlText

open Yaml

/-- How deep collections may be nested where they are read. -/
def depthLimit : Nat := 128

/-- The node of a text, which may begin with a byte order mark. -/
def node? (text : String) : Option Node := do
  let chars := match text.toList with
    | '\ufeff' :: rest => rest
    | chars => chars
  if chars.all isAllowed then
    let tokens ← tokens? (unifyBreaks chars)
    documentNode? tokens
  else none

/-- Reads a text, which holds one document; a mistake anywhere leaves nothing to read. -/
def read (text : String) : SourceText where
  root := ((node? text).map (Node.toSource depthLimit)).getD (.fault (.ending .malformed))
  trailing := none

end ApiTypes.YamlText

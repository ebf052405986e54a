import ApiTypes.Source.Yaml.Node
import ApiTypes.Source.Yaml.Token

/-! Collections whose end has not been read: what they hold, and what they wait for. -/

namespace ApiTypes.Yaml

/-- How a collection is written. -/
inductive CollectionForm where
  /-- Items after dashes in a column of their own. -/
  | blockList
  /-- Items after dashes in the column of the record around them. -/
  | levelList
  | blockRecord
  /-- Items in square brackets. -/
  | flowList
  /-- Members in curly brackets. -/
  | flowRecord
deriving DecidableEq

/-- Whether a collection is written in brackets. -/
def CollectionForm.inFlow : CollectionForm → Bool
  | flowList | flowRecord => true
  | blockList | levelList | blockRecord => false

/-- What a collection waits for. -/
inductive Stage where
  /-- An entry may begin. -/
  | between
  /-- An item has been announced. -/
  | item
  /-- A key has been announced. -/
  | key
  /-- A key has been read. -/
  | afterKey (key : Node)
  /-- The value of a key has been announced. -/
  | value (key : Node)
  /-- An entry in brackets is complete. -/
  | complete

/-- A collection whose end has not been read. -/
structure Collection where
  form : CollectionForm
  /-- The entries, latest first; a key may come without a value, and an item always does. -/
  entries : List (Node × Option Node) := []
  stage : Stage := .between

namespace Collection

/-- The stage after a complete entry. -/
def settled (collection : Collection) : Stage :=
  if collection.form.inFlow then .complete else .between

/-- The collection with one more node, where it waits for one. -/
def place (collection : Collection) (node : Node) : Option Collection :=
  match collection.stage with
  | .between =>
    if collection.form.inFlow then
      some { collection with entries := (node, none) :: collection.entries, stage := .complete }
    else none
  | .item => some { collection with
      entries := (node, none) :: collection.entries
      stage := .between }
  | .key => some { collection with stage := .afterKey node }
  | .value key => some { collection with
      entries := (key, some node) :: collection.entries
      stage := collection.settled }
  | .afterKey _ | .complete => none

/-- The collection as a node. A pair among the items of a list is a record of its own. -/
def toNode (collection : Collection) : Node :=
  let item (entry : Node × Option Node) : Node :=
    match entry with
    | (node, none) => node
    | (key, some value) => .record [(key, value)]
  let member (entry : Node × Option Node) : Node × Node :=
    (entry.1, entry.2.getD .leftOut)
  match collection.form with
  | .blockList | .levelList | .flowList => .list (collection.entries.reverse.map item)
  | .blockRecord | .flowRecord => .record (collection.entries.reverse.map member)

/-- Whether a token shows that the node which the collection waits for has been left out. -/
def isLeftOutBefore (collection : Collection) (token : Token) : Bool :=
  match collection.form, collection.stage, token with
  | .blockList, .item, .entry | .blockList, .item, .closeBlock => true
  | .levelList, .item, .entry | .levelList, .item, .closeBlock => true
  | .levelList, .item, .key | .levelList, .item, .value => true
  | .blockRecord, .key, .key | .blockRecord, .key, .value | .blockRecord, .key, .closeBlock => true
  | .blockRecord, .value _, .key | .blockRecord, .value _, .value => true
  | .blockRecord, .value _, .closeBlock => true
  | .flowList, .value _, .comma | .flowList, .value _, .closeList => true
  | .flowRecord, .key, .value | .flowRecord, .key, .comma | .flowRecord, .key, .closeRecord => true
  | .flowRecord, .value _, .comma | .flowRecord, .value _, .closeRecord => true
  | _, _, _ => false

/-- Whether a key is left out in square brackets, in which case the token counts for it. -/
def isKeyLeftOutBy (collection : Collection) (token : Token) : Bool :=
  match collection.form, collection.stage, token with
  | .flowList, .key, .value | .flowList, .key, .comma | .flowList, .key, .closeList => true
  | _, _, _ => false

/-- Whether an item may follow that stands in the column of the collection itself. -/
def admitsLevelList (collection : Collection) : Bool :=
  match collection.form, collection.stage with
  | .blockRecord, .key | .blockRecord, .value _ => true
  | _, _ => false

/-- Whether a token closes the collection. -/
def isClosedBy (collection : Collection) (token : Token) : Bool :=
  match collection.form, collection.stage, token with
  | .blockList, .between, .closeBlock | .blockRecord, .between, .closeBlock => true
  | .flowList, .between, .closeList | .flowList, .complete, .closeList => true
  | .flowRecord, .between, .closeRecord | .flowRecord, .complete, .closeRecord => true
  | _, _, _ => false

end Collection

end ApiTypes.Yaml

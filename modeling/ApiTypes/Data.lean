import ApiTypes.Binary64
import ApiTypes.Table

/-! Structured data: the values of documents, and what is written out as JSON or YAML. -/

namespace ApiTypes

/-- A structured value. -/
inductive Data where
  | null
  | bool (value : Bool)
  | integer (value : Int)
  /-- A number that is written with a point or an exponent. -/
  | real (value : Binary64)
  | text (value : String)
  | list (items : List Data)
  /-- Named members in the order in which they are written. -/
  | record (members : List (String × Data))
  /-- One of several alternatives, marked by the name of the alternative. -/
  | variant (tag : String) (content : Data)

namespace Data

instance : Inhabited Data := ⟨null⟩

mutual

/-- Equality of values: reals compare by value, and an integer never equals a real. -/
def same : Data → Data → Bool
  | .null, .null => true
  | .bool left, .bool right => left == right
  | .integer left, .integer right => left == right
  | .real left, .real right => left == right
  | .text left, .text right => left == right
  | .list left, .list right => sameItems left right
  | .record left, .record right => sameMembers left right
  | .variant leftTag left, .variant rightTag right => leftTag == rightTag && same left right
  | _, _ => false

/-- Equality of lists, item by item. -/
def sameItems : List Data → List Data → Bool
  | [], [] => true
  | left :: leftRest, right :: rightRest => same left right && sameItems leftRest rightRest
  | _, _ => false

/-- Equality of members in their order. -/
def sameMembers : List (String × Data) → List (String × Data) → Bool
  | [], [] => true
  | (leftName, left) :: leftRest, (rightName, right) :: rightRest =>
    leftName == rightName && same left right && sameMembers leftRest rightRest
  | _, _ => false

end

instance : BEq Data := ⟨same⟩

/-- Whether a value is null. -/
def isNull : Data → Bool
  | .null => true
  | _ => false

/-- Adds a member at its place in the order of names; a member of that name is replaced. -/
def insertSorted (name : String) (value : Data) : List (String × Data) → List (String × Data)
  | [] => [(name, value)]
  | member :: rest =>
    if name < member.1 then (name, value) :: member :: rest
    else if name = member.1 then (name, value) :: rest
    else member :: insertSorted name value rest

/-- A record with its members in the order of their names; the last of equal names stays. -/
def sortedRecord (members : List (String × Data)) : Data :=
  .record (members.foldl (fun sorted member => insertSorted member.1 member.2 sorted) [])

/-- A member that is always written. -/
def field (name : String) (value : Data) : List (String × Data) := [(name, value)]

/-- A member that is written only when it has a value. -/
def optional {α : Type} (name : String) (write : α → Data) (value : Option α) :
    List (String × Data) :=
  (value.map fun present => (name, write present)).toList

/-- A flag that is written only when it is set. -/
def flag (name : String) (value : Bool) : List (String × Data) :=
  if value then [(name, .bool true)] else []

/-- A list that is written only when it has items. -/
def nonempty {α : Type} (name : String) (write : α → Data) (items : List α) :
    List (String × Data) :=
  if items.isEmpty then [] else [(name, .list (items.map write))]

/-- A natural number. -/
def natural (value : Nat) : Data := .integer value

/-- A list of texts. -/
def texts (values : List String) : Data := .list (values.map .text)

/-- A table as a record in the table's order. -/
def ofTable {α : Type} (write : α → Data) (table : Table α) : Data :=
  .record (table.map write).entries

end Data

end ApiTypes

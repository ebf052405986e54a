import ApiTypes.Reading.Error

/-!
Reading typed values from the tree of a text. Parts are read in the order of the text, so the first
mistake of the text is the one that is reported.
-/

namespace ApiTypes

/-- How the reader stands to the text. -/
inductive Stance where
  /-- The value is read straight from JSON text. -/
  | json
  /-- The value is read straight from YAML text, whose words have the type that is wanted. -/
  | yaml
  /-- The value has been taken in whole before its type is tried, so its words have a meaning. -/
  | whole
deriving DecidableEq

namespace Source

/-- The word that is read straight, if there is one; elsewhere a word counts for its value. -/
def straightWord? (stance : Stance) : Source → Option Yaml.Word
  | .word written => if stance = .yaml then some written else none
  | _ => none

/-- Whether a collection read straight is written as nothing at all. -/
def isEmptyWord (stance : Stance) (source : Source) : Bool :=
  (source.straightWord? stance).any Yaml.Word.isEmpty

/-- A value that was looked for; the source is something else if it is absent. -/
def orMismatch {α : Type} (source : Source) (expected : String) (value : Option α) : Reading α :=
  match value with
  | some value => .ok value
  | none => .error (source.mismatch expected)

/-- The text of a scalar. -/
def text? (stance : Stance) (source : Source) : Option String :=
  match source.straightWord? stance, source.scalar? with
  | some written, _ => some written.text
  | none, some (.text value) => some value
  | _, _ => none

/-- Reads a text. -/
def readText (stance : Stance) (source : Source) : Reading String :=
  source.orMismatch "a string" (source.text? stance)

/-- Reads a truth value. -/
def readBool (stance : Stance) (source : Source) : Reading Bool :=
  source.orMismatch "a boolean" <|
    match source.straightWord? stance, source.scalar? with
    | some written, _ => written.asTruth?
    | none, some (.bool value) => some value
    | _, _ => none

/-- Reads a number; an integer is rounded to a double. -/
def readReal (stance : Stance) (source : Source) : Reading Binary64 :=
  source.orMismatch "f64" <|
    match source.straightWord? stance, source.scalar? with
    | some written, _ => written.asReal?
    | none, some (.real value) => some value
    | none, some (.integer value) => some (Binary64.ofInt value)
    | _, _ => none

/-- Reads a natural number; a real is never one, even without a fraction. -/
def readNat (stance : Stance) (expected : String) (source : Source) : Reading Nat :=
  match source.straightWord? stance, source.scalar? with
  | some written, _ => source.orMismatch expected written.asCount?
  | none, some (.integer value) =>
    if 0 ≤ value then .ok value.toNat else .error (.wrongValue (.scalar (.integer value)) expected)
  | _, _ => .error (source.mismatch expected)

/-- Whether a value is the absence of one. -/
def isAbsent (stance : Stance) (source : Source) : Reading Bool :=
  match source.straightWord? stance, source.scalar? with
  | some written, _ => source.orMismatch "null" written.isNothing?
  | none, some .null => .ok true
  | _, _ => .ok false

/-- Reads a value that may be absent. -/
def readOption {α : Type} (stance : Stance) (read : Source → Reading α) (source : Source) :
    Reading (Option α) := do
  if ← source.isAbsent stance then return none else return some (← read source)

/-- Reads the items of a list. -/
def readList {α : Type} (stance : Stance) (read : Source → Reading α) (source : Source) :
    Reading (List α) :=
  match source.opened with
  | .list items => items.mapM read
  | _ => if source.isEmptyWord stance then .ok [] else .error (source.mismatch "a sequence")

/-- Reads entries one after the other; a repeated key replaces the value in its first place. -/
def readEntries {α ν : Type} (stance : Stance) (read : ν → Reading α) :
    List (Source × ν) → Table α → Reading (Table α)
  | [], table => .ok table
  | (key, value) :: rest, table => do
    let name ← key.readText stance
    let entry ← read value
    readEntries stance read rest (table.insert name entry)

/-- Reads a table. -/
def readTable {α : Type} (stance : Stance) (read : Source → Reading α) (source : Source) :
    Reading (Table α) :=
  match source.opened with
  | .record members => readEntries stance read members {}
  | _ => if source.isEmptyWord stance then .ok {} else .error (source.mismatch "a map")

/-- The value of a scalar. What is not finite has no value and becomes null. -/
def scalarData : Scalar → Data
  | .null => .null
  | .bool value => .bool value
  | .integer value => .integer value
  | .real value =>
    match value with
    | .finite .. => .real value
    | _ => .null
  | .text value => .text value

mutual

/-- Reads any value. Members are put in the order of their names, the last of equal ones stays. -/
def readData (stance : Stance) : Source → Reading Data
  | .list items => do return .list (← readDataItems stance items)
  | .record members => do return .record (← readDataMembers stance members [])
  | .scalar value => .ok (scalarData value)
  | .word written =>
    (orMismatch (.word written) "any value" written.value?).map scalarData
  | .sealed _ | .misplaced _ => .error (.text .malformed)
  | .fault place => .error (.text place.onRead)

/-- Reads the items of a list. -/
def readDataItems (stance : Stance) : List Source → Reading (List Data)
  | [] => .ok []
  | item :: rest => do return (← readData stance item) :: (← readDataItems stance rest)

/-- Reads members into their place among those already read. -/
def readDataMembers (stance : Stance) :
    List (Source × Source) → List (String × Data) → Reading (List (String × Data))
  | [], sorted => .ok sorted
  | (key, value) :: rest, sorted => do
    let name ← key.readText stance
    readDataMembers stance rest (Data.insertSorted name (← readData stance value) sorted)

end

/-- Passes over a value. -/
def skip (source : Source) : Reading Unit :=
  match source.skipFault? with
  | some mistake => .error (.text mistake)
  | none => .ok ()

/-- Takes a value in whole, so that the types it may have can be tried one after the other. -/
def takeWhole (source : Source) : Reading Unit :=
  match source.readFault? with
  | some mistake => .error (.text mistake)
  | none => .ok ()

/-- The first of several ways of reading that succeeds, for a value that was taken in whole. -/
def tryAll {α : Type} (name : String) (readings : List (Reading α)) (source : Source) :
    Reading α := do
  source.takeWhole
  match readings.findSome? Except.toOption with
  | some value => return value
  | none => throw (.noAlternative name)

/-- What stands for one of several things: its name, or its position among them. -/
inductive Identifier where
  | name (name : String)
  | position (index : Nat)

/-- Reads an identifier. Only a value taken in whole can be a position, and it has no sign. -/
def readIdentifier (stance : Stance) (expected : String) (source : Source) : Reading Identifier :=
  match source.text? stance, source with
  | some name, _ => .ok (.name name)
  | none, .word written =>
    match written.value? with
    | some (.integer index) =>
      if 0 ≤ index && written.text.toList.head? != some '-' then .ok (.position index.toNat)
      else .error (source.mismatch expected)
    | _ => .error (source.mismatch expected)
  | none, _ => .error (source.mismatch expected)

/-- The fault of a part of a collection that has to end before it. -/
def endFault : Source → TextFault
  | .fault place => place.onEnd
  | _ => .malformed

/-- One of several choices by its name. -/
def choose {α : Type} (variants : List (String × α)) (name : String) : Reading α :=
  match variants.find? fun variant => variant.1 == name with
  | some (_, value) => .ok value
  | none => .error (.unknownVariant name (variants.map Prod.fst))

/-- One of several choices by an identifier. -/
def chooseBy {α : Type} (variants : List (String × α)) : Identifier → Reading α
  | .name name => choose variants name
  | .position index =>
    match variants[index]? with
    | some (_, value) => .ok value
    | none => .error (.wrongValue (.scalar (.integer index)) "variant index")

/-- What stands in the place of a key, even if it cannot be one. -/
def inKeyPlace : Source → Source
  | .misplaced value => value
  | key => key

/-- Reads a choice that is written as a record from its name to null. -/
def readChoiceMember {α : Type} (stance : Stance) (variants : List (String × α))
    (key value : Source) (rest : List (Source × Source)) : Reading α := do
  let choice ← chooseBy variants (← key.inKeyPlace.readIdentifier stance "variant identifier")
  match value.scalar?, rest with
  | some .null, [] => return choice
  | some .null, (extra, _) :: _ => throw (.text extra.endFault)
  | _, _ => throw (value.mismatch "unit")

/--
Reads one of several named choices, written as its name or as a record. Where JSON is read straight,
the first character decides which of the two it is.
-/
def readChoice {α : Type} (stance : Stance) (variants : List (String × α)) (source : Source) :
    Reading α :=
  match source.straightWord? stance, source with
  | some written, _ => do choose variants (← source.orMismatch "a variant" written.asChoice?)
  | none, .record ((key, value) :: rest) =>
    if stance = .yaml then .error (source.mismatch "a variant")
    else readChoiceMember stance variants key value rest
  | none, .fault place => .error (.text place.onName)
  | none, _ =>
    match source.text? stance with
    | some name => choose variants name
    | none =>
      if stance = .json then .error (.text .malformed) else .error (source.mismatch "a variant")

end Source

/-- Reads a value from a text that holds nothing else. -/
def SourceText.readAs {α : Type} (text : SourceText) (read : Source → Reading α) : Reading α := do
  let value ← read text.root
  match text.trailing with
  | some mistake => throw (.text mistake)
  | none => return value

end ApiTypes

import ApiTypes.Source.Fault
import ApiTypes.Source.Yaml.Word

/-! What a text says before it is given a type, with the places where reading it fails. -/

namespace ApiTypes

/--
A text as a tree. Members keep their order and repeated keys stay. Where the text cannot be read
on, the tree ends with a fault, so reading the tree in order meets the first mistake first.
-/
inductive Source where
  /-- A scalar that has one meaning. -/
  | scalar (value : Scalar)
  /-- A scalar whose meaning depends on what is wanted. -/
  | word (written : Yaml.Word)
  | list (items : List Source)
  | record (members : List (Source × Source))
  /-- A collection that cannot be taken in whole, though its parts can be read one by one. -/
  | sealed (collection : Source)
  /-- A value that stands in the place of a key, where the text breaks off because of it. -/
  | misplaced (value : Source)
  /-- A place that cannot be read. -/
  | fault (place : Fault)

namespace Source

/-- The value of a scalar that is taken in whole. -/
def scalar? : Source → Option Scalar
  | .scalar value => some value
  | .word written => written.value?
  | _ => none

/-- A collection in the form in which its parts can be read. -/
def opened : Source → Source
  | .sealed collection => opened collection
  | source => source

mutual

/-- The first fault met when a value is passed over without being used. -/
def skipFault? : Source → Option TextFault
  | .fault place => place.onSkip
  | .misplaced _ => some .malformed
  | .list items => skipFaultOfItems items
  | .record members => skipFaultOfMembers members
  | .scalar _ | .word _ | .sealed _ => none

/-- The first fault met when items are passed over. -/
def skipFaultOfItems : List Source → Option TextFault
  | [] => none
  | item :: rest => (skipFault? item).or (skipFaultOfItems rest)

/-- The first fault met when members are passed over. -/
def skipFaultOfMembers : List (Source × Source) → Option TextFault
  | [] => none
  | (key, value) :: rest =>
    (skipFault? key).or ((skipFault? value).or (skipFaultOfMembers rest))

end

mutual

/-- The first fault met when a value is read whole, with all its parts. -/
def readFault? : Source → Option TextFault
  | .fault place => some place.onRead
  | .misplaced _ | .sealed _ => some .malformed
  | .list items => readFaultOfItems items
  | .record members => readFaultOfMembers members
  | .word written => if written.value?.isNone then some .malformed else none
  | .scalar _ => none

/-- The first fault met when all items are read. -/
def readFaultOfItems : List Source → Option TextFault
  | [] => none
  | item :: rest => (readFault? item).or (readFaultOfItems rest)

/-- The first fault met when all members are read. -/
def readFaultOfMembers : List (Source × Source) → Option TextFault
  | [] => none
  | (key, value) :: rest =>
    (readFault? key).or ((readFault? value).or (readFaultOfMembers rest))

end

mutual

/-- Turns every collection nested deeper than a limit into a fault of reading. -/
def limitDepth (limit : Nat) : Source → Source
  | .list items =>
    match limit with
    | 0 => .fault { Fault.unreadable with onSkip := skipFaultOfItems items }
    | deeper + 1 => .list (limitItems deeper items)
  | .record members =>
    match limit with
    | 0 => .fault { Fault.unreadable with onSkip := skipFaultOfMembers members }
    | deeper + 1 => .record (limitMembers deeper members)
  | .sealed collection => .sealed (limitDepth limit collection)
  | .scalar value => .scalar value
  | .word written => .word written
  | .misplaced value => .misplaced value
  | .fault place => .fault place

/-- Limits the depth of every item. -/
def limitItems (limit : Nat) : List Source → List Source
  | [] => []
  | item :: rest => limitDepth limit item :: limitItems limit rest

/-- Limits the depth of every key and value. -/
def limitMembers (limit : Nat) : List (Source × Source) → List (Source × Source)
  | [] => []
  | (key, value) :: rest =>
    (limitDepth limit key, limitDepth limit value) :: limitMembers limit rest

end

section

variable {β : Type} (onLeaf : Source → β) (onList : List (Source × β) → β)
  (onRecord : List (Source × (Source × β)) → β)

mutual

/-- A result for every part of a tree, from the results of the parts inside it. -/
def recurse : Source → β
  | .list items => onList (recurseItems items)
  | .record members => onRecord (recurseMembers members)
  | .sealed collection => recurse collection
  | .scalar value => onLeaf (.scalar value)
  | .word written => onLeaf (.word written)
  | .misplaced value => onLeaf (.misplaced value)
  | .fault place => onLeaf (.fault place)

/-- Every item together with its result. -/
def recurseItems : List Source → List (Source × β)
  | [] => []
  | item :: rest => (item, recurse item) :: recurseItems rest

/-- Every member with the result of its value. -/
def recurseMembers : List (Source × Source) → List (Source × (Source × β))
  | [] => []
  | (key, value) :: rest => (key, value, recurse value) :: recurseMembers rest

end

end

end Source

/-- A text read as one value, and the fault that follows the value if the text goes on wrongly. -/
structure SourceText where
  root : Source
  trailing : Option TextFault

end ApiTypes

import ApiTypes.Source

/-!
The nodes of YAML text, in which a repeated node is only pointed to. A node may be given a number,
and a repetition stands for the last node of the whole text that has its number.
-/

namespace ApiTypes.Yaml

-- Sums are computed from zero, whatever structure of numbers that is also part of.
attribute [local instance (high)] Zero.ofOfNat0

/-- A node of a text. -/
inductive Node where
  | word (written : Word)
  | list (items : List Node)
  | record (members : List (Node × Node))
  /-- A collection that is marked as a value of a foreign type. -/
  | foreign (collection : Node)
  /-- A node with a number. -/
  | numbered (number : Nat) (node : Node)
  /-- The node that has a number, once more. -/
  | repetition (number : Nat)

namespace Node

/-- A node that is left out. -/
def leftOut : Node := .word { text := "" }

mutual

/-- A node and all that is inside it, in the order of the text. -/
def parts : Node → List Node
  | .word written => [.word written]
  | .list items => .list items :: partsOfItems items
  | .record members => .record members :: partsOfMembers members
  | .foreign collection => .foreign collection :: parts collection
  | .numbered number node => .numbered number node :: parts node
  | .repetition number => [.repetition number]

/-- All that is inside a list. -/
def partsOfItems : List Node → List Node
  | [] => []
  | item :: rest => parts item ++ partsOfItems rest

/-- All that is inside a record. -/
def partsOfMembers : List (Node × Node) → List Node
  | [] => []
  | (key, value) :: rest => parts key ++ (parts value ++ partsOfMembers rest)

end

/-- How much a node counts without what is inside it; a collection has a beginning and an end. -/
def weight : Node → Nat
  | .word _ | .repetition _ => 1
  | .list _ | .record _ => 2
  | .foreign _ | .numbered _ _ => 0

/-- The size of a node. -/
def size (node : Node) : Nat := (node.parts.map weight).sum

/-- The nodes that are repeated, with their numbers; of a number's nodes the last comes first. -/
def repeatedNodes (node : Node) : List (Nat × Node) :=
  let repeated := node.parts.filterMap fun
    | .repetition number => some number
    | _ => none
  let numbered := node.parts.filterMap fun
    | .numbered number found => if repeated.contains number then some (number, found) else none
    | _ => none
  numbered.reverse

end Node

/-- A node whose repetitions are replaced by what they stand for, and how many of them there are. -/
structure Unfolded where
  source : Source
  repetitions : Nat

namespace Unfolded

/-- A place that cannot be read. -/
def unreadable : Unfolded := ⟨.fault .unreadable, 0⟩

/-- Takes care that a collection can only be read part by part. -/
def asSealed (unfolded : Unfolded) : Unfolded := { unfolded with source := .sealed unfolded.source }

/-- A collection of unfolded parts; one with too many repetitions cannot be taken in whole. -/
def ofParts (limit : Nat) (collection : Source) (parts : List Unfolded) : Unfolded :=
  let whole : Unfolded := ⟨collection, (parts.map repetitions).sum⟩
  if limit < whole.repetitions then whole.asSealed else whole

/-- A repetition of an unfolded node, which cannot be read if it has too many inside. -/
def again (limit : Nat) (unfolded : Unfolded) : Unfolded :=
  if limit ≤ unfolded.repetitions then unreadable
  else { unfolded with repetitions := unfolded.repetitions + 1 }

end Unfolded

namespace Node

/-- The nodes that are repeated, unfolded for one depth. -/
abbrev Unfoldings := List (Nat × Unfolded)

mutual

/--
Unfolds a node. The repeated nodes are given as they are at its own depth, and `inner` gives them
for the depths inside it; a collection below the last depth cannot be read.
-/
def unfold (limit : Nat) (level : Unfoldings) (inner : List Unfoldings) : Node → Unfolded
  | .word written => ⟨.word written, 0⟩
  | .list items =>
    match inner with
    | [] => .unreadable
    | next :: deeper =>
      let parts := unfoldItems limit next deeper items
      .ofParts limit (.list (parts.map Unfolded.source)) parts
  | .record members =>
    match inner with
    | [] => .unreadable
    | next :: deeper =>
      let parts := unfoldMembers limit next deeper members
      .ofParts limit (.record (parts.map fun (key, value) => (key.source, value.source)))
        (parts.flatMap fun (key, value) => [key, value])
  | .foreign collection => (unfold limit level inner collection).asSealed
  | .numbered _ node => unfold limit level inner node
  | .repetition number => ((level.lookup number).map (Unfolded.again limit)).getD .unreadable

/-- Unfolds every item. -/
def unfoldItems (limit : Nat) (level : Unfoldings) (inner : List Unfoldings) :
    List Node → List Unfolded
  | [] => []
  | item :: rest => unfold limit level inner item :: unfoldItems limit level inner rest

/-- Unfolds every key and value. -/
def unfoldMembers (limit : Nat) (level : Unfoldings) (inner : List Unfoldings) :
    List (Node × Node) → List (Unfolded × Unfolded)
  | [] => []
  | (key, value) :: rest =>
    (unfold limit level inner key, unfold limit level inner value)
      :: unfoldMembers limit level inner rest

end

/--
Repeated nodes for as many depths as given, the outermost first. A node that contains a repetition
of itself is unfolded until the last depth.
-/
def levels (limit : Nat) (repeated : List (Nat × Node)) : Nat → List Unfoldings
  | 0 => []
  | depth + 1 =>
    let inner := levels limit repeated depth
    -- A numbered node is no repetition itself, so it needs nothing at its own depth.
    repeated.map (fun (number, node) => (number, node.unfold limit [] inner)) :: inner

/-- How many repetitions may be read for each part of a text. -/
def repetitionsPerPart : Nat := 100

/-- The tree of a text's node, with collections nested up to a depth. -/
def toSource (depth : Nat) (node : Node) : Source :=
  let limit := repetitionsPerPart * node.size
  (node.unfold limit [] (levels limit node.repeatedNodes depth)).source

end Node

end ApiTypes.Yaml

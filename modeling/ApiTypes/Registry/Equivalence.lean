import ApiTypes.Registry
import ApiTypes.Search

/-!
Comparing types through the names of their declarations. Two declared names are taken to be
equivalent until their declarations show a difference, so recursive declarations may be compared.
-/

namespace ApiTypes

/-- Two names that have to be equivalent. -/
abbrev NamePair := String × String

namespace Equivalence

mutual

/-- The names that have to be equivalent for two types to be so; absent if the types differ. -/
def ofTypes : TypeExpr → TypeExpr → Option (List NamePair)
  | ⟨leftKind, leftNullable, leftConstraints⟩, ⟨rightKind, rightNullable, rightConstraints⟩ =>
    if leftNullable == rightNullable && leftConstraints == rightConstraints then
      ofKinds leftKind rightKind
    else none

/-- The names that have to be equivalent for two kinds to be so; absent if the kinds differ. -/
def ofKinds : TypeKind TypeExpr → TypeKind TypeExpr → Option (List NamePair)
  | .named left, .named right => some [(left, right)]
  | .array left, .array right => ofTypes left right
  | .map left, .map right => ofTypes left right
  | left, right => if left == right then some [] else none

end

/-- The names that have to be equivalent for two lists of fields to be so. -/
def ofFields : List Field → List Field → Option (List NamePair)
  | [], [] => some []
  | left :: leftRest, right :: rightRest =>
    if left.name == right.name && left.required == right.required then do
      return (← ofTypes left.type right.type) ++ (← ofFields leftRest rightRest)
    else none
  | _, _ => none

/-- The names that have to be equivalent for two types to be so that may be absent. -/
def ofOptions : Option TypeExpr → Option TypeExpr → Option (List NamePair)
  | none, none => some []
  | some left, some right => ofTypes left right
  | _, _ => none

/-- The names that have to be equivalent for two shapes to be so; absent if the shapes differ. -/
def ofShapes : Shape → Shape → Option (List NamePair)
  | .record left, .record right => do
    return (← ofOptions left.additional right.additional) ++ (← ofFields left.fields right.fields)
  | .alias left, .alias right => ofTypes left right
  | .union left, .union right =>
    if left.kind == right.kind && left.nullable == right.nullable
        && left.discriminator == right.discriminator
        && left.members.length == right.members.length then
      some (left.members.zip right.members)
    else none
  | left, right => if left == right then some [] else none

end Equivalence

namespace Registry

/-- The names that have to be equivalent for two names to be so; absent if they are not. -/
def namePairs (registry : Registry) (pair : NamePair) : Option (List NamePair) :=
  if pair.1 = pair.2 then some []
  else do Equivalence.ofShapes (← registry.get? pair.1).shape (← registry.get? pair.2).shape

/-- All pairs of names that are taken. -/
def knownPairs (registry : Registry) : List NamePair :=
  registry.slots.keys.flatMap fun left => registry.slots.keys.map fun right => (left, right)

/-- Whether two kinds of types admit the same values as far as their declarations show. -/
def equivalent (registry : Registry) (left right : TypeKind TypeExpr) : Bool :=
  match Equivalence.ofKinds left right with
  | none => false
  | some pairs => (Search.explore registry.knownPairs registry.namePairs [] pairs).isSome

end Registry

end ApiTypes

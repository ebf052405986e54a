import ApiTypes.Constraints.Intersection
import ApiTypes.Declaration

/-! Merging the members of an intersection into one shape, and choices between named types. -/

namespace ApiTypes

/-- What a member contributes to an intersection. -/
inductive MemberShape where
  | record (shape : RecordShape)
  /-- Names of properties that the member requires and does not declare. -/
  | required (names : List String)
  /-- No restriction at all. -/
  | unconstrained
  /-- A type that is not an object. -/
  | scalar (type : TypeExpr)
  /-- A choice. -/
  | union

/-- A member of an intersection. -/
structure IntersectionMember where
  /-- What messages call the member. -/
  label : String
  /-- The declared type to which the member refers. -/
  reference : Option String := none
  shape : MemberShape

/-- The shape of an intersection, with what it could not express. -/
structure Merged where
  shape : Shape
  notes : List MergeNote

namespace Intersection

/-- The names that members require, each at its first place. -/
def requiredNames (members : List IntersectionMember) : List String :=
  members.foldl (fun names member =>
    match member.shape with
    | .required more =>
      more.foldl (fun names name => if names.contains name then names else names ++ [name]) names
    | _ => names) []

/-- Whether a member contributes a type. -/
def isTyped (member : IntersectionMember) : Bool :=
  match member.shape with
  | .required _ | .unconstrained => false
  | _ => true

/-- Whether a member is a choice. -/
def isUnion (member : IntersectionMember) : Bool :=
  match member.shape with
  | .union => true
  | _ => false

/-- Whether the only typed member is a record. -/
def isSingleRecord : List IntersectionMember → Bool
  | [⟨_, _, .record _⟩] => true
  | _ => false

/-- The shape of an intersection of at most one typed member. -/
def single : List IntersectionMember → Shape
  | [⟨_, some name, _⟩] => .alias (.named name)
  | [⟨_, none, .record shape⟩] => .record shape
  | [⟨_, none, .scalar type⟩] => .alias type
  | _ => .alias .any

section

variable (equivalent : TypeKind TypeExpr → TypeKind TypeExpr → Bool)

/-- Merges a field into the field of the same name that another member declares. -/
def mergeField (existing incoming : Field) : Except CompositionError (Field × List MergeNote) :=
  let old := existing.type
  let new := incoming.type
  if !(old.kind == new.kind) && !equivalent old.kind new.kind then
    .error (.fieldConflict incoming.key)
  else
    let (constraints, notes) := Constraints.intersect incoming.key old.constraints new.constraints
    -- An empty range is noted by the merge that empties it.
    let emptied := constraints.hasEmptyRange && !old.constraints.hasEmptyRange
      && !new.constraints.hasEmptyRange
    .ok
      ({ existing with
          type := { old with nullable := old.nullable && new.nullable, constraints }
          required := existing.required || incoming.required
          deprecated := existing.deprecated || incoming.deprecated
          readOnly := existing.readOnly || incoming.readOnly
          writeOnly := existing.writeOnly || incoming.writeOnly
          description := existing.description.or incoming.description },
        notes ++ (if emptied then [.emptyRange incoming.key] else []))

/-- Adds a field at the end, or merges it into the field of its name. -/
def addField (incoming : Field) : List Field → Except CompositionError (List Field × List MergeNote)
  | [] => .ok ([incoming], [])
  | existing :: rest =>
    if existing.key = incoming.key then do
      let (merged, notes) ← mergeField equivalent existing incoming
      return (merged :: rest, notes)
    else do
      let (others, notes) ← addField incoming rest
      return (existing :: others, notes)

/-- Adds the fields of a record one after the other. -/
def addFields : List Field → RecordShape × List MergeNote →
    Except CompositionError (RecordShape × List MergeNote)
  | [], merged => .ok merged
  | incoming :: rest, (shape, notes) => do
    let (fields, more) ← addField equivalent incoming shape.fields
    addFields rest ({ shape with fields }, notes ++ more)

/-- The type of further properties: the first one stays, and every other has to be equivalent. -/
def mergeAdditional : Option TypeExpr → Option TypeExpr →
    Except CompositionError (Option TypeExpr)
  | none, extra => .ok extra
  | some current, none => .ok (some current)
  | some current, some extra =>
    if !(current == extra) && !equivalent current.kind extra.kind then
      .error .additionalPropertiesConflict
    else .ok (some current)

/-- Merges members into a record; every one of them has to be a record itself. -/
def mergeRecords : List IntersectionMember → RecordShape × List MergeNote →
    Except CompositionError (RecordShape × List MergeNote)
  | [], merged => .ok merged
  | ⟨label, _, shape⟩ :: rest, merged =>
    match shape with
    | .record shape => do
      let (whole, notes) ← addFields equivalent shape.fields merged
      let additional ← mergeAdditional equivalent whole.additional shape.additional
      mergeRecords rest ({ whole with additional }, notes)
    | _ => .error (.nonObjectMember label)

end

/-- Makes the fields of the given names required, with a note for every name without a field. -/
def requireFields : List String → List Field → List Field × List MergeNote
  | [], fields => (fields, [])
  | name :: rest, fields =>
    if fields.any fun field => field.key == name then
      requireFields rest <| fields.map fun field =>
        if field.key = name then { field with required := true } else field
    else
      let (fields, notes) := requireFields rest fields
      (fields, .unknownRequired name :: notes)

end Intersection

/--
The intersection of members. A single type stands for itself; several have to be records, whose
fields are merged in the order of the members. Whether two types of a field agree is decided by
`equivalent`.
-/
def mergeAllOf (members : List IntersectionMember)
    (equivalent : TypeKind TypeExpr → TypeKind TypeExpr → Bool) :
    Except CompositionError Merged := do
  if let some union := members.find? Intersection.isUnion then
    throw (.nestedUnion union.label)
  let required := Intersection.requiredNames members
  let typed := members.filter Intersection.isTyped
  if typed.length ≤ 1 && !(Intersection.isSingleRecord typed && !required.isEmpty) then
    return ⟨Intersection.single typed, required.map .unknownRequired⟩
  let (merged, notes) ← Intersection.mergeRecords equivalent typed ({}, [])
  let (fields, unknown) := Intersection.requireFields required merged.fields
  return ⟨.record { merged with fields }, notes ++ unknown⟩

/-- The members of a choice without repetitions, in the order in which they appear first. -/
def distinctNames (names : List String) : List String :=
  names.foldl (fun found name => if found.contains name then found else found ++ [name]) []

/-- A choice between declared types; a single one without a discriminator stands for itself. -/
def unionOf (kind : CompositionKind) (names : List String) (nullable : Bool)
    (discriminator : Option Discriminator) : Except CompositionError Shape :=
  match distinctNames names, discriminator with
  | [], _ => .error .emptyUnion
  | [only], none => .ok (.alias ((TypeExpr.named only).withNullable nullable))
  | members, discriminator => .ok (.union { kind, members, nullable, discriminator })

end ApiTypes

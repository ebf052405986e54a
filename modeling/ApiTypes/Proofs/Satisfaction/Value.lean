import Mathlib.Algebra.Field.Rat
import Mathlib.Algebra.Order.Field.Power
import Mathlib.Data.Rat.Cast.Order
import Mathlib.Tactic.Positivity
import Mathlib.Tactic.Ring
import Mathlib.Tactic.FieldSimp
import ApiTypes.Constraints.Intersection
import ApiTypes.Lowering

/-!
JSON values, when they are within constraints, and when they satisfy a schema node. The numbers of values
are exact, and so are those of constraints; what patterns and formats say is left open.
-/

namespace ApiTypes

/-- A JSON value. -/
inductive Json where
  | null
  | bool (value : Bool)
  | number (value : ℚ)
  | text (value : String)
  | list (items : List Json)
  /-- Named members, in any order. -/
  | object (members : List (String × Json))

namespace Binary64

/-- The exact value of a finite number. -/
def rational? : Binary64 → Option ℚ
  | .finite negative significand exponent _ => some (signed negative significand * 2 ^ exponent)
  | .infinite _ | .nan => none

/-- A finite value is as many units of a grid as are counted. -/
theorem onGrid_mul (negative : Bool) (significand : Nat) {grid exponent : Int}
    (finer : grid ≤ exponent) :
    (onGrid grid negative significand exponent : ℚ) * 2 ^ grid =
      signed negative significand * 2 ^ exponent := by
  -- A unit of the exponent is a whole number of units of the finer grid.
  obtain ⟨steps, rfl⟩ := Int.le.dest finer
  have unit : (2 : ℚ) ^ (grid + steps) = 2 ^ grid * 2 ^ steps := by
    rw [zpow_add₀ two_ne_zero, zpow_natCast]
  have count : (grid + (steps : Int) - grid).toNat = steps := by omega
  rw [onGrid, count, unit]
  cases negative <;> simp only [signed, if_true, Bool.false_eq_true, if_false] <;> push_cast <;> ring

/-- Numbers that are equal by value have the same exact value, and are the same if they have none. -/
theorem rational?_of_beq {left right : Binary64} (same : (left == right) = true) :
    left.rational? = right.rational? ∧ (left.rational? = none → left = right) := by
  have ordering : (compare? left right == some .eq) = true := same
  match left, right with
  | .nan, _ => cases ordering
  | .infinite _, .nan | .finite .., .nan => cases ordering
  | .infinite left, .infinite right => cases left <;> cases right <;> simp_all [compare?]
  | .infinite negative, .finite .. | .finite .., .infinite negative =>
    cases negative <;> simp [compare?] at ordering
  | .finite leftSign leftSignificand leftExponent _,
    .finite rightSign rightSignificand rightExponent _ =>
    refine ⟨?_, nofun⟩
    -- Both count the same number of units of the finer grid.
    have counts : onGrid (min leftExponent rightExponent) leftSign leftSignificand leftExponent =
        onGrid (min leftExponent rightExponent) rightSign rightSignificand rightExponent := by
      simpa [compare?, compare_eq_iff_eq] using ordering
    rw [rational?, rational?, ← onGrid_mul leftSign leftSignificand (min_le_left _ rightExponent),
      ← onGrid_mul rightSign rightSignificand (min_le_right leftExponent _), counts]

end Binary64

namespace Bound

/-- A number lies above a bound, or on it if that belongs to the range. -/
def IsBelow (bound : Bound) (number : ℚ) : Prop :=
  match bound.value.rational? with
  | some value => if bound.exclusive then value < number else value ≤ number
  | none => bound.value = .infinite true

/-- A number lies below a bound, or on it if that belongs to the range. -/
def IsAbove (bound : Bound) (number : ℚ) : Prop :=
  match bound.value.rational? with
  | some value => if bound.exclusive then number < value else number ≤ value
  | none => bound.value = .infinite false

end Bound

/-- A number is an integral multiple of another one. -/
def Binary64.Divides (divisor : Binary64) (number : ℚ) : Prop :=
  ∃ value, divisor.rational? = some value ∧ ∃ factor : ℤ, number = factor * value

/-- What is left open: which texts match a pattern, and which values are of a format. -/
structure Dialect where
  Matches : String → String → Prop
  HasFormat : String → Json → Prop

namespace Dialect

variable (dialect : Dialect)

/-- A value is within the constraints that apply to values of its type. -/
def Admits (constraints : Constraints) : Json → Prop
  | .number value =>
    (∀ bound ∈ constraints.minimum, bound.IsBelow value) ∧
      (∀ bound ∈ constraints.maximum, bound.IsAbove value) ∧
      ∀ divisor ∈ constraints.multipleOf, divisor.Divides value
  | .text value =>
    (∀ least ∈ constraints.minLength, least ≤ value.length) ∧
      (∀ most ∈ constraints.maxLength, value.length ≤ most) ∧
      ∀ pattern ∈ constraints.pattern, dialect.Matches pattern value
  | .list items =>
    (∀ least ∈ constraints.minItems, least ≤ items.length) ∧
      ∀ most ∈ constraints.maxItems, items.length ≤ most
  | .null | .bool _ | .object _ => True

/-- A value is of a base type, and of the format if one is given. -/
def IsPrimitive (base : PrimitiveBase) (format : Option String) (value : Json) : Prop :=
  (∀ name ∈ format, dialect.HasFormat name value) ∧
    match base, value with
    | .string, .text _ => True
    | .integer, .number number => number.isInt = true
    | .number, .number _ => True
    | .boolean, .bool _ => True
    | _, _ => False

/-- Any value is within no constraints. -/
@[simp] theorem admits_empty (value : Json) : dialect.Admits {} value := by
  cases value <;> simp [Admits]

end Dialect

/-- What an optional value holds is equal to what an equal one does. -/
theorem exists_of_option_beq {α : Type} [BEq α] {left right : Option α}
    (same : (left == right) = true) {value : α} (isLeft : value ∈ left) :
    ∃ other ∈ right, (value == other) = true := by
  cases isLeft
  cases right with
  | some right => exact ⟨right, rfl, same⟩
  | none => cases same

/-- Equal bounds are exclusive alike and have the same exact value, or are the same if they have none. -/
theorem Bound.parts_of_beq {left right : Bound} (same : (left == right) = true) :
    left.exclusive = right.exclusive ∧ left.value.rational? = right.value.rational? ∧
      (left.value.rational? = none → left.value = right.value) := by
  simp only [BEq.beq, instBEqBound.beq, Bool.and_eq_true] at same
  obtain ⟨values, flags⟩ := same
  have flag : left.exclusive = right.exclusive := eq_of_beq flags
  exact ⟨flag, Binary64.rational?_of_beq values⟩

/-- Equal bounds lie below the same numbers. -/
theorem Bound.isBelow_of_beq {left right : Bound} (same : (left == right) = true) {number : ℚ}
    (below : right.IsBelow number) : left.IsBelow number := by
  obtain ⟨flag, sameValue, alike⟩ := parts_of_beq same
  unfold IsBelow at below ⊢
  -- Bounds without an exact value are compared as they are written.
  cases isValue : left.value.rational? with
  | some value => simpa only [← sameValue, isValue, flag] using below
  | none => exact (alike isValue).trans (by simpa only [← sameValue, isValue] using below)

/-- Equal bounds lie above the same numbers. -/
theorem Bound.isAbove_of_beq {left right : Bound} (same : (left == right) = true) {number : ℚ}
    (above : right.IsAbove number) : left.IsAbove number := by
  obtain ⟨flag, sameValue, alike⟩ := parts_of_beq same
  unfold IsAbove at above ⊢
  cases isValue : left.value.rational? with
  | some value => simpa only [← sameValue, isValue, flag] using above
  | none => exact (alike isValue).trans (by simpa only [← sameValue, isValue] using above)

/-- Equal constraints admit the same values. -/
theorem Dialect.admits_of_beq {dialect : Dialect} {left right : Constraints}
    (same : (left == right) = true) {value : Json} (admits : dialect.Admits right value) :
    dialect.Admits left value := by
  -- Numbers need the exact values of bounds; whatever else is compared is equal as it is written.
  simp only [BEq.beq, instBEqConstraints.beq, Bool.and_eq_true] at same
  obtain ⟨minimum, maximum, multipleOf, minLength, maxLength, pattern, minItems, maxItems, _⟩ := same
  cases value with
  | number number =>
    obtain ⟨least, greatest, divided⟩ := admits
    refine ⟨fun bound isBound => ?_, fun bound isBound => ?_, fun divisor isDivisor => ?_⟩
    · obtain ⟨other, isOther, alike⟩ := exists_of_option_beq minimum isBound
      exact Bound.isBelow_of_beq alike (least other isOther)
    · obtain ⟨other, isOther, alike⟩ := exists_of_option_beq maximum isBound
      exact Bound.isAbove_of_beq alike (greatest other isOther)
    · obtain ⟨other, isOther, alike⟩ := exists_of_option_beq multipleOf isDivisor
      obtain ⟨value, isValue, divides⟩ := divided other isOther
      exact ⟨value, (Binary64.rational?_of_beq alike).1.trans isValue, divides⟩
  | text text =>
    have least : left.minLength = right.minLength := eq_of_beq minLength
    have most : left.maxLength = right.maxLength := eq_of_beq maxLength
    have same : left.pattern = right.pattern := eq_of_beq pattern
    rwa [Admits, least, most, same]
  | list items =>
    have least : left.minItems = right.minItems := eq_of_beq minItems
    have most : left.maxItems = right.maxItems := eq_of_beq maxItems
    rwa [Admits, least, most]
  | null | bool | object => trivial

namespace Data

mutual

/-- The JSON value that data stands for. -/
def json? : Data → Option Json
  | .null => some .null
  | .bool value => some (.bool value)
  | .integer value => some (.number value)
  | .real value => value.rational?.map .number
  | .text value => some (.text value)
  | .list items => (jsonItems? items).map .list
  | .record members => (jsonMembers? members).map .object
  | .variant _ _ => none

/-- The JSON values of all items. -/
def jsonItems? : List Data → Option (List Json)
  | [] => some []
  | item :: rest => do return (← json? item) :: (← jsonItems? rest)

/-- The JSON values of all members, under their names. -/
def jsonMembers? : List (String × Data) → Option (List (String × Json))
  | [] => some []
  | (name, value) :: rest => do return (name, ← json? value) :: (← jsonMembers? rest)

end

mutual

/-- Equal data stand for the same JSON value. -/
theorem json?_of_same : ∀ {left right : Data}, same left right = true → json? left = json? right
  | .null, right, isSame => by
    cases right <;> simp [same] at isSame
    rfl
  | .bool left, right, isSame => by
    cases right <;> simp [same] at isSame
    rw [isSame]
  | .integer left, right, isSame => by
    cases right <;> simp [same] at isSame
    rw [isSame]
  -- Equal numbers have the same rational value, though their zeros may differ in sign.
  | .real left, right, isSame => by
    cases right <;> simp only [same, Bool.false_eq_true] at isSame
    simp only [json?, (Binary64.rational?_of_beq isSame).1]
  | .text left, right, isSame => by
    cases right <;> simp [same] at isSame
    rw [isSame]
  | .list left, right, isSame => by
    cases right <;> simp only [same, Bool.false_eq_true] at isSame
    simp only [json?, jsonItems?_of_same isSame]
  | .record left, right, isSame => by
    cases right <;> simp only [same, Bool.false_eq_true] at isSame
    simp only [json?, jsonMembers?_of_same isSame]
  | .variant _ left, right, isSame => by
    cases right <;> simp only [same, Bool.false_eq_true] at isSame
    rfl

/-- Equal lists stand for the same JSON values. -/
theorem jsonItems?_of_same : ∀ {left right : List Data}, sameItems left right = true →
    jsonItems? left = jsonItems? right
  | [], right, isSame => by
    cases right <;> simp only [sameItems, Bool.false_eq_true] at isSame
    rfl
  | first :: rest, right, isSame => by
    cases right <;> simp only [sameItems, Bool.false_eq_true, Bool.and_eq_true] at isSame
    simp only [jsonItems?, json?_of_same isSame.1, jsonItems?_of_same isSame.2]

/-- Equal members stand for the same JSON values. -/
theorem jsonMembers?_of_same : ∀ {left right : List (String × Data)}, sameMembers left right = true →
    jsonMembers? left = jsonMembers? right
  | [], right, isSame => by
    cases right <;> simp only [sameMembers, Bool.false_eq_true] at isSame
    rfl
  | (name, first) :: rest, right, isSame => by
    cases right <;> simp only [sameMembers, Bool.false_eq_true, Bool.and_eq_true] at isSame
    obtain ⟨⟨sameName, sameFirst⟩, sameRest⟩ := isSame
    simp only [jsonMembers?, eq_of_beq sameName, json?_of_same sameFirst,
      jsonMembers?_of_same sameRest]

end

end Data

/--
A value satisfies a node. References are followed in the model of the document. Required names bind
objects alone, and every object that satisfies a node without a type has those that the node lists.
-/
inductive Dialect.Satisfies (dialect : Dialect) (model : SchemaModel) : SchemaNode → Json → Prop
  | null {node : SchemaNode} (nullable : node.traits.nullable = true) :
    Satisfies dialect model node .null
  | primitive {base format traits value} (isPrimitive : dialect.IsPrimitive base format value)
    (within : dialect.Admits traits.constraints value) :
    Satisfies dialect model ⟨.primitive base format, traits⟩ value
  | enum {base values traits data value} (isListed : data ∈ values)
    (stands : data.json? = some value) : Satisfies dialect model ⟨.enum base values, traits⟩ value
  | array {node traits items} (within : dialect.Admits traits.constraints (.list items))
    (each : ∀ item ∈ items, Satisfies dialect model node item) :
    Satisfies dialect model ⟨.array node, traits⟩ (.list items)
  | map {node traits members}
    (each : ∀ name value, (name, value) ∈ members → Satisfies dialect model node value) :
    Satisfies dialect model ⟨.map node, traits⟩ (.object members)
  | object {properties additional traits members}
    (listed : ∀ property ∈ properties, ∀ value, (property.name, value) ∈ members →
      Satisfies dialect model property.schema value)
    (required : ∀ property ∈ properties, property.required = true →
      ∃ value, (property.name, value) ∈ members)
    (undeclared : ∀ name ∈ traits.required, ∃ value, (name, value) ∈ members)
    (further : ∀ node ∈ additional, ∀ name value, (name, value) ∈ members →
      (∀ property ∈ properties, property.name ≠ name) → Satisfies dialect model node value) :
    Satisfies dialect model ⟨.object properties additional, traits⟩ (.object members)
  | every {members discriminator traits value}
    (each : ∀ member ∈ members, Satisfies dialect model member value) :
    Satisfies dialect model ⟨.composed .allOf members discriminator, traits⟩ value
  | some {kind members discriminator traits member value} (isChoice : kind ≠ .allOf)
    (isMember : member ∈ members) (inside : Satisfies dialect model member value) :
    Satisfies dialect model ⟨.composed kind members discriminator, traits⟩ value
  | reference {target traits node value} (found : model.node? target = Option.some node)
    (inside : Satisfies dialect model node value) :
    Satisfies dialect model ⟨.reference target, traits⟩ value
  | any {traits value} (required : ∀ members, value = Json.object members →
      ∀ name ∈ traits.required, ∃ value, (name, value) ∈ members) :
    Satisfies dialect model ⟨.any, traits⟩ value
  | onlyNull {traits} : Satisfies dialect model ⟨.null, traits⟩ .null

/-- A node is that of a component schema, or it stands inside such a node. -/
inductive SchemaModel.Contains (model : SchemaModel) : SchemaNode → Prop
  | schema {name node} (found : model.node? name = some node) : Contains model node
  | items {node traits} (outer : Contains model ⟨.array node, traits⟩) : Contains model node
  | value {node traits} (outer : Contains model ⟨.map node, traits⟩) : Contains model node
  | property {properties additional traits property}
    (outer : Contains model ⟨.object properties additional, traits⟩)
    (isListed : property ∈ properties) : Contains model property.schema
  | additional {properties additional traits node}
    (outer : Contains model ⟨.object properties additional, traits⟩) (isValue : node ∈ additional) :
    Contains model node
  | member {kind members discriminator traits member}
    (outer : Contains model ⟨.composed kind members discriminator, traits⟩)
    (isMember : member ∈ members) : Contains model member

end ApiTypes

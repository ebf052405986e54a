import ApiTypes.Declaration
import ApiTypes.Proofs.Table

/-! Equality of shapes. A shape equals itself if all the numbers that it writes are defined. -/

namespace ApiTypes

/-- A number that is defined equals itself. -/
theorem Binary64.beq_self {value : Binary64} (isDefined : value ≠ .nan) : (value == value) = true := by
  have same : (compare? value value == some .eq) = true := by
    -- Finite values are the same number of units on their grid.
    cases value with
    | nan => exact absurd rfl isDefined
    | infinite negative => simp [compare?]
    | finite negative significand exponent canonical => simp [compare?]
  exact same

/-- A value that may be absent equals itself if it does where it is present. -/
theorem option_beq_self {α : Type} [BEq α] {value? : Option α}
    (same : ∀ value ∈ value?, (value == value) = true) : (value? == value?) = true := by
  cases value? with
  | none => rfl
  | some value => exact same value rfl

/-- A list equals itself if each of its items does. -/
theorem list_beq_self {α : Type} [BEq α] {items : List α}
    (same : ∀ item ∈ items, (item == item) = true) : (items == items) = true := by
  induction items with
  | nil => rfl
  | cons first rest ih =>
    have ⟨head, tail⟩ := List.forall_mem_cons.mp same
    exact Bool.and_eq_true_iff.mpr ⟨head, ih tail⟩

/-- A table without repeated keys equals itself if each of its values does. -/
theorem Table.beq_self {α : Type} [BEq α] {table : Table α} (distinct : table.keys.Nodup)
    (same : ∀ value ∈ table.values, (value == value) = true) : (table == table) = true := by
  -- Every entry is the one that is found under its key.
  have included : table.isIncludedIn table = true := by
    refine List.all_eq_true.mpr fun entry isEntry => ?_
    rw [Table.get?_of_mem_entries distinct isEntry]
    exact same entry.2 (List.mem_map_of_mem isEntry)
  exact Bool.and_eq_true_iff.mpr ⟨included, included⟩

namespace Data

mutual

/-- The numbers with a point or an exponent in a value. -/
def reals : Data → List Binary64
  | .real value => [value]
  | .list items => realsOfItems items
  | .record members => realsOfMembers members
  | .variant _ content => reals content
  | .null | .bool _ | .integer _ | .text _ => []

/-- The numbers in the items of a list. -/
def realsOfItems : List Data → List Binary64
  | [] => []
  | item :: rest => reals item ++ realsOfItems rest

/-- The numbers in the members of a record. -/
def realsOfMembers : List (String × Data) → List Binary64
  | [] => []
  | (_, value) :: rest => reals value ++ realsOfMembers rest

end

theorem realsOfItems_eq (items : List Data) : realsOfItems items = items.flatMap reals := by
  induction items with
  | nil => rfl
  | cons item rest ih => rw [realsOfItems, ih, List.flatMap_cons]

theorem realsOfMembers_eq (members : List (String × Data)) :
    realsOfMembers members = members.flatMap fun member => reals member.2 := by
  induction members with
  | nil => rfl
  | cons member rest ih => rw [realsOfMembers, ih, List.flatMap_cons]

mutual

/-- A value whose numbers are defined equals itself. -/
theorem same_self : ∀ {value : Data}, .nan ∉ value.reals → same value value = true
  | .null, _ => rfl
  | .bool _, _ | .integer _, _ | .text _, _ => by simp [same]
  | .real value, isDefined => by
    rw [same]
    exact Binary64.beq_self fun isNan => isDefined (by simp [reals, isNan])
  | .list _, isDefined => by
    rw [same]
    exact sameItems_self (by simpa [reals] using isDefined)
  | .record _, isDefined => by
    rw [same]
    exact sameMembers_self (by simpa [reals] using isDefined)
  | .variant _ _, isDefined => by
    simp only [same, beq_self_eq_true, Bool.true_and]
    exact same_self (by simpa [reals] using isDefined)

/-- So do lists of such values. -/
theorem sameItems_self : ∀ {items : List Data}, .nan ∉ realsOfItems items →
    sameItems items items = true
  | [], _ => rfl
  | _ :: _, isDefined => by
    simp only [realsOfItems, List.mem_append, not_or] at isDefined
    simp only [sameItems, same_self isDefined.1, sameItems_self isDefined.2, Bool.and_self]

/-- And the members of records. -/
theorem sameMembers_self : ∀ {members : List (String × Data)}, .nan ∉ realsOfMembers members →
    sameMembers members members = true
  | [], _ => rfl
  | (_, _) :: _, isDefined => by
    simp only [realsOfMembers, List.mem_append, not_or] at isDefined
    simp only [sameMembers, beq_self_eq_true, same_self isDefined.1, sameMembers_self isDefined.2,
      Bool.and_self]

end

end Data

namespace Constraints

/-- The numbers that constraints give. -/
def numbers (constraints : Constraints) : List Binary64 :=
  (constraints.minimum.map Bound.value).toList ++ (constraints.maximum.map Bound.value).toList ++
    constraints.multipleOf.toList

/-- Constraints whose numbers are defined equal themselves. -/
theorem beq_self {constraints : Constraints} (isDefined : .nan ∉ constraints.numbers) :
    (constraints == constraints) = true := by
  simp only [numbers, List.mem_append, not_or, Option.mem_toList] at isDefined
  obtain ⟨⟨least, greatest⟩, divisor⟩ := isDefined
  have bounds : ∀ {bound? : Option Bound}, .nan ∉ bound?.map Bound.value →
      (bound? == bound?) = true := by
    intro bound? isDefined
    refine option_beq_self fun bound isBound => Bool.and_eq_true_iff.mpr ⟨?_, by simp⟩
    exact Binary64.beq_self fun isNan => isDefined (isNan ▸ Option.mem_map_of_mem _ isBound)
  have divides : (constraints.multipleOf == constraints.multipleOf) = true :=
    option_beq_self fun value isValue => Binary64.beq_self fun isNan => divisor (isNan ▸ isValue)
  unfold BEq.beq instBEqConstraints instBEqConstraints.beq
  simp only [bounds least, bounds greatest, divides, beq_self_eq_true, Bool.and_self]

end Constraints

namespace TypeExpr

/-- The numbers in the constraints of a type and of the types inside it. -/
def numbers : TypeExpr → List Binary64
  | ⟨.array items, _, constraints⟩ => constraints.numbers ++ items.numbers
  | ⟨.map value, _, constraints⟩ => constraints.numbers ++ value.numbers
  | ⟨.primitive _ _, _, constraints⟩ | ⟨.named _, _, constraints⟩ | ⟨.any, _, constraints⟩
  | ⟨.null, _, constraints⟩ => constraints.numbers

/-- A type whose numbers are defined equals itself. -/
theorem same_self : ∀ {type : TypeExpr}, .nan ∉ type.numbers → same type type = true
  | ⟨.array _, _, _⟩, isDefined | ⟨.map _, _, _⟩, isDefined => by
    simp only [numbers, List.mem_append, not_or] at isDefined
    simp only [same, sameKind, same_self isDefined.2, beq_self_eq_true,
      Constraints.beq_self isDefined.1, Bool.and_self]
  | ⟨.primitive _ _, _, _⟩, isDefined | ⟨.named _, _, _⟩, isDefined | ⟨.any, _, _⟩, isDefined
  | ⟨.null, _, _⟩, isDefined => by
    simp only [numbers] at isDefined
    simp [same, sameKind, Constraints.beq_self isDefined]

end TypeExpr

namespace Shape

/-- The numbers that a shape writes. -/
def numbers : Shape → List Binary64
  | .record shape =>
    shape.fields.flatMap (fun field => field.type.numbers)
      ++ (shape.additional.map TypeExpr.numbers).getD []
  | .enum _ values => values.flatMap Data.reals
  | .union _ => []
  | .alias target => target.numbers

/-- The mapping by which a choice tells its members apart, if it has one. -/
def mapping? : Shape → Option (Table String)
  | .union shape => shape.discriminator.map Discriminator.mapping
  | .record _ | .enum _ _ | .alias _ => none

/-- A shape whose numbers are defined, and which maps no value twice, equals itself. -/
theorem beq_self {shape : Shape} (isDefined : .nan ∉ shape.numbers)
    (distinct : ∀ mapping ∈ shape.mapping?, mapping.keys.Nodup) : (shape == shape) = true := by
  -- Equality fails to be reflexive only at undefined numbers and at keys that are mapped twice.
  cases shape with
  | record shape =>
    simp only [numbers, List.mem_append, not_or, List.mem_flatMap, not_exists, not_and] at isDefined
    have fields : (shape.fields == shape.fields) = true := by
      refine list_beq_self fun field isField => ?_
      have type : (field.type == field.type) = true :=
        TypeExpr.same_self (isDefined.1 field isField)
      unfold BEq.beq instBEqField instBEqField.beq
      simp only [type, beq_self_eq_true, Bool.and_self]
    have additional : (shape.additional == shape.additional) = true := by
      refine option_beq_self fun type isType => TypeExpr.same_self ?_
      have rest := isDefined.2
      rw [Option.mem_def.mp isType] at rest
      exact rest
    exact Bool.and_eq_true_iff.mpr ⟨fields, additional⟩
  | enum base values =>
    simp only [numbers, List.mem_flatMap, not_exists, not_and] at isDefined
    exact Bool.and_eq_true_iff.mpr ⟨by simp,
      list_beq_self fun value isValue => Data.same_self (isDefined value isValue)⟩
  | union shape =>
    have discriminators : (shape.discriminator == shape.discriminator) = true := by
      refine option_beq_self fun discriminator isDiscriminator => ?_
      have keys := distinct discriminator.mapping (by
        simp [mapping?, Option.mem_def.mp isDiscriminator])
      exact Bool.and_eq_true_iff.mpr ⟨by simp, Table.beq_self keys fun _ _ => by simp⟩
    have same : (shape == shape) = true := by
      unfold BEq.beq instBEqUnionShape instBEqUnionShape.beq
      simp only [discriminators, beq_self_eq_true, Bool.and_self]
    exact same
  | «alias» target => exact TypeExpr.same_self isDefined

end Shape

end ApiTypes

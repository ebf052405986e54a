import ApiTypes.Declaration
import ApiTypes.Proofs.Satisfaction.Value
import ApiTypes.Proofs.Table

/-!
Equality by value. It is symmetric and transitive for numbers and for whatever contains them, though a
value that is no number does not equal itself.
-/

namespace ApiTypes

namespace Binary64

/-- Two numbers are equal if they have the same exact value, or are infinite with the same sign. -/
theorem beq_iff (left right : Binary64) : (left == right) = true ↔
    (∃ value, left.rational? = some value ∧ right.rational? = some value) ∨
      ∃ negative, left = .infinite negative ∧ right = .infinite negative := by
  constructor
  · intro same
    have ⟨sameValue, alike⟩ := rational?_of_beq same
    cases isValue : left.rational? with
    | some value => exact .inl ⟨value, rfl, sameValue ▸ isValue⟩
    | none =>
      cases alike isValue
      cases left with
      | nan => cases same
      | infinite negative => exact .inr ⟨negative, rfl, rfl⟩
      | finite => cases isValue
  · rintro (⟨value, isLeft, isRight⟩ | ⟨negative, rfl, rfl⟩)
    · -- Only finite numbers have exact values.
      match left, right with
      | .nan, _ | .infinite _, _ => cases isLeft
      | .finite .., .nan | .finite .., .infinite _ => cases isRight
      | .finite leftSign leftSignificand leftExponent _,
        .finite rightSign rightSignificand rightExponent _ =>
        -- Values that are equal are equally many units of the finer grid.
        have values := Option.some.inj (isLeft.trans isRight.symm)
        rw [← onGrid_mul leftSign leftSignificand (min_le_left _ rightExponent),
          ← onGrid_mul rightSign rightSignificand (min_le_right leftExponent _)] at values
        have counts := mul_right_cancel₀ (zpow_ne_zero _ two_ne_zero) values
        have ordering : compare? (.finite leftSign leftSignificand leftExponent ‹_›)
            (.finite rightSign rightSignificand rightExponent ‹_›) = some .eq := by
          simpa [compare?, compare_eq_iff_eq] using counts
        exact show (compare? _ _ == some Ordering.eq) = true from beq_iff_eq.mpr ordering
    · cases negative <;> rfl

instance : PartialEquivBEq Binary64 where
  symm same := by
    rw [beq_iff] at same ⊢
    exact same.imp (fun ⟨value, isLeft, isRight⟩ => ⟨value, isRight, isLeft⟩)
      fun ⟨negative, isLeft, isRight⟩ => ⟨negative, isRight, isLeft⟩
  trans first second := by
    rw [beq_iff] at first second ⊢
    -- The number in the middle is finite or infinite, so that both pairs are equal in the same way.
    rcases first with ⟨value, isLeft, isMiddle⟩ | ⟨negative, rfl, rfl⟩
    · rcases second with ⟨other, alsoMiddle, isRight⟩ | ⟨negative, rfl, rfl⟩
      · cases isMiddle.symm.trans alsoMiddle
        exact .inl ⟨value, isLeft, isRight⟩
      · cases isMiddle
    · rcases second with ⟨other, alsoMiddle, isRight⟩ | ⟨_, isMiddle, rfl⟩
      · cases alsoMiddle
      · cases isMiddle
        exact .inr ⟨negative, rfl, rfl⟩

end Binary64

section

variable {α β : Type} [BEq α] [BEq β] [PartialEquivBEq α]

/-- What is compared by something that is read of it is compared as that is. -/
theorem partialEquivBEq_comap (read : β → α)
    (same : ∀ left right, (left == right) = (read left == read right)) : PartialEquivBEq β where
  symm equal := by
    rw [same] at equal ⊢
    exact PartialEquivBEq.symm equal
  trans one two := by
    rw [same] at one two ⊢
    exact PartialEquivBEq.trans one two

instance partialEquivBEqProd [PartialEquivBEq β] : PartialEquivBEq (α × β) where
  symm same := by
    have ⟨first, second⟩ := Bool.and_eq_true_iff.mp same
    exact Bool.and_eq_true_iff.mpr ⟨PartialEquivBEq.symm first, PartialEquivBEq.symm second⟩
  trans one two := by
    have ⟨first, second⟩ := Bool.and_eq_true_iff.mp one
    have ⟨alsoFirst, alsoSecond⟩ := Bool.and_eq_true_iff.mp two
    exact Bool.and_eq_true_iff.mpr
      ⟨PartialEquivBEq.trans first alsoFirst, PartialEquivBEq.trans second alsoSecond⟩

instance partialEquivBEqOption : PartialEquivBEq (Option α) where
  symm {left right} same := by
    cases left with
    | none => cases right <;> exact same
    | some left =>
      cases right with
      | none => exact same
      | some right => exact (PartialEquivBEq.symm same : (right == left) = true)
  trans {left middle right} first second := by
    cases middle with
    | none =>
      cases left with
      | none => exact second
      | some => cases first
    | some middle =>
      cases left with
      | none => cases first
      | some left =>
        cases right with
        | none => cases second
        | some right => exact (PartialEquivBEq.trans first second : (left == right) = true)

instance partialEquivBEqList : PartialEquivBEq (List α) where
  symm {left right} same := by
    induction left generalizing right with
    | nil => cases right <;> exact same
    | cons first rest ih =>
      cases right with
      | nil => cases same
      | cons other others =>
        have ⟨isFirst, isRest⟩ := Bool.and_eq_true_iff.mp same
        exact Bool.and_eq_true_iff.mpr ⟨PartialEquivBEq.symm isFirst, ih isRest⟩
  trans {left middle right} one two := by
    induction left generalizing middle right with
    | nil =>
      cases middle with
      | nil => exact two
      | cons => cases one
    | cons first rest ih =>
      cases middle with
      | nil => cases one
      | cons second others =>
        cases right with
        | nil => cases two
        | cons third more =>
          have ⟨isFirst, isRest⟩ := Bool.and_eq_true_iff.mp one
          have ⟨isSecond, areOthers⟩ := Bool.and_eq_true_iff.mp two
          exact Bool.and_eq_true_iff.mpr
            ⟨PartialEquivBEq.trans isFirst isSecond, ih isRest areOthers⟩

instance : PartialEquivBEq (Table α) where
  symm same := by
    have ⟨included, includes⟩ := Bool.and_eq_true_iff.mp same
    exact Bool.and_eq_true_iff.mpr ⟨includes, included⟩
  trans {left middle right} first second := by
    -- Tables are equal if they include each other, and including is transitive by itself.
    have included {one two three : Table α} (isFirst : one.isIncludedIn two = true)
        (isSecond : two.isIncludedIn three = true) : one.isIncludedIn three = true := by
      refine List.all_eq_true.mpr fun entry isEntry => (Option.any_eq_true _ _).mpr ?_
      obtain ⟨value, found, same⟩ :=
        (Option.any_eq_true _ _).mp (List.all_eq_true.mp isFirst entry isEntry)
      obtain ⟨other, alsoFound, alsoSame⟩ := (Option.any_eq_true _ _).mp
        (List.all_eq_true.mp isSecond _ (Table.mem_entries_of_get? found))
      exact ⟨other, alsoFound, PartialEquivBEq.trans same alsoSame⟩
    have ⟨isFirst, backFirst⟩ := Bool.and_eq_true_iff.mp first
    have ⟨isSecond, backSecond⟩ := Bool.and_eq_true_iff.mp second
    exact Bool.and_eq_true_iff.mpr ⟨included isFirst isSecond, included backSecond backFirst⟩

end

namespace Data

mutual

/-- Equality of values is symmetric. -/
theorem same_symm (left right : Data) (equal : same left right = true) :
    same right left = true := by
  -- Values of different forms are not equal.
  cases left <;> cases right <;> simp only [same, Bool.false_eq_true] at equal ⊢
  case bool.bool | integer.integer | text.text | real.real => exact BEq.symm equal
  case list.list left right => exact sameItems_symm left right equal
  case record.record left right => exact sameMembers_symm left right equal
  case variant.variant left _ right =>
    have ⟨tags, contents⟩ := Bool.and_eq_true_iff.mp equal
    exact Bool.and_eq_true_iff.mpr ⟨BEq.symm tags, same_symm left right contents⟩

/-- Equality of items is symmetric. -/
theorem sameItems_symm (left right : List Data) (equal : sameItems left right = true) :
    sameItems right left = true := by
  cases left <;> cases right <;> simp only [sameItems, Bool.false_eq_true] at equal ⊢
  case cons.cons first rest other others =>
    have ⟨firsts, rests⟩ := Bool.and_eq_true_iff.mp equal
    exact Bool.and_eq_true_iff.mpr ⟨same_symm first other firsts, sameItems_symm rest others rests⟩

/-- Equality of members is symmetric. -/
theorem sameMembers_symm (left right : List (String × Data))
    (equal : sameMembers left right = true) : sameMembers right left = true := by
  -- Only members in the same positions are compared.
  cases left <;> cases right <;> simp only [sameMembers, Bool.false_eq_true] at equal ⊢
  case cons.cons first rest other others =>
    have ⟨firsts, rests⟩ := Bool.and_eq_true_iff.mp equal
    have ⟨names, values⟩ := Bool.and_eq_true_iff.mp firsts
    exact Bool.and_eq_true_iff.mpr ⟨Bool.and_eq_true_iff.mpr
      ⟨BEq.symm names, same_symm first.2 other.2 values⟩, sameMembers_symm rest others rests⟩

end

mutual

/-- Equality of values is transitive. -/
theorem same_trans (left middle right : Data) (one : same left middle = true)
    (two : same middle right = true) : same left right = true := by
  -- The forms of the first two are compared before there is a third one, which keeps the cases few.
  cases left <;> cases middle <;> simp only [same, Bool.false_eq_true] at one <;>
    cases right <;> simp only [same, Bool.false_eq_true] at two ⊢
  case bool.bool.bool | integer.integer.integer | text.text.text | real.real.real =>
    exact PartialEquivBEq.trans one two
  case list.list.list left middle right => exact sameItems_trans left middle right one two
  case record.record.record left middle right => exact sameMembers_trans left middle right one two
  case variant.variant.variant left _ middle _ right =>
    have ⟨tags, contents⟩ := Bool.and_eq_true_iff.mp one
    have ⟨alsoTags, alsoContents⟩ := Bool.and_eq_true_iff.mp two
    exact Bool.and_eq_true_iff.mpr
      ⟨PartialEquivBEq.trans tags alsoTags, same_trans left middle right contents alsoContents⟩
termination_by structural left

/-- Equality of items is transitive. -/
theorem sameItems_trans (left middle right : List Data) (one : sameItems left middle = true)
    (two : sameItems middle right = true) : sameItems left right = true := by
  cases left <;> cases middle <;> simp only [sameItems, Bool.false_eq_true] at one <;>
    cases right <;> simp only [sameItems, Bool.false_eq_true] at two ⊢
  case cons.cons.cons first rest second others third more =>
    have ⟨firsts, rests⟩ := Bool.and_eq_true_iff.mp one
    have ⟨seconds, alsoRests⟩ := Bool.and_eq_true_iff.mp two
    exact Bool.and_eq_true_iff.mpr ⟨same_trans first second third firsts seconds,
      sameItems_trans rest others more rests alsoRests⟩
termination_by structural left

/-- Equality of members is transitive. -/
theorem sameMembers_trans (left middle right : List (String × Data))
    (one : sameMembers left middle = true) (two : sameMembers middle right = true) :
    sameMembers left right = true := by
  cases left <;> cases middle <;> simp only [sameMembers, Bool.false_eq_true] at one <;>
    cases right <;> simp only [sameMembers, Bool.false_eq_true] at two ⊢
  case cons.cons.cons first rest second others third more =>
    obtain ⟨name, value⟩ := first
    have ⟨firsts, rests⟩ := Bool.and_eq_true_iff.mp one
    have ⟨seconds, alsoRests⟩ := Bool.and_eq_true_iff.mp two
    have ⟨names, values⟩ := Bool.and_eq_true_iff.mp firsts
    have ⟨alsoNames, alsoValues⟩ := Bool.and_eq_true_iff.mp seconds
    exact Bool.and_eq_true_iff.mpr ⟨Bool.and_eq_true_iff.mpr
      ⟨PartialEquivBEq.trans names alsoNames, same_trans value second.2 third.2 values alsoValues⟩,
      sameMembers_trans rest others more rests alsoRests⟩
termination_by structural left

end

instance : PartialEquivBEq Data := ⟨same_symm _ _, same_trans _ _ _⟩

end Data

instance : PartialEquivBEq Bound :=
  partialEquivBEq_comap (fun bound => (bound.value, bound.exclusive)) fun _ _ => rfl

instance : PartialEquivBEq Constraints :=
  partialEquivBEq_comap (fun constraints =>
    (constraints.minimum, constraints.maximum, constraints.multipleOf, constraints.minLength,
      constraints.maxLength, constraints.pattern, constraints.minItems, constraints.maxItems,
      constraints.uniqueItems)) fun _ _ => rfl

instance : PartialEquivBEq Discriminator :=
  partialEquivBEq_comap (fun discriminator => (discriminator.propertyName, discriminator.mapping)) fun _ _ => rfl

namespace TypeExpr

/-- Equality of types is symmetric. -/
theorem same_symm : ∀ (left right : TypeExpr), same left right = true → same right left = true
  | ⟨leftKind, _, _⟩, ⟨rightKind, _, _⟩, equal => by
    simp only [same, Bool.and_eq_true] at equal ⊢
    refine ⟨⟨?_, BEq.symm equal.1.2⟩, BEq.symm equal.2⟩
    have kinds := equal.1.1
    cases leftKind <;> cases rightKind <;> simp only [sameKind, Bool.false_eq_true] at kinds ⊢
    case array.array left right | map.map left right => exact same_symm left right kinds
    case named.named => exact BEq.symm kinds
    case primitive.primitive =>
      have ⟨bases, formats⟩ := Bool.and_eq_true_iff.mp kinds
      exact Bool.and_eq_true_iff.mpr ⟨BEq.symm bases, BEq.symm formats⟩

/-- Equality of types is transitive. -/
theorem same_trans : ∀ (left middle right : TypeExpr),
    same left middle = true → same middle right = true → same left right = true
  | ⟨leftKind, _, _⟩, ⟨middleKind, _, _⟩, ⟨rightKind, _, _⟩, one, two => by
    simp only [same, Bool.and_eq_true] at one two ⊢
    refine ⟨⟨?_, PartialEquivBEq.trans one.1.2 two.1.2⟩, PartialEquivBEq.trans one.2 two.2⟩
    have first := one.1.1
    have second := two.1.1
    cases leftKind <;> cases middleKind <;> simp only [sameKind, Bool.false_eq_true] at first <;>
      cases rightKind <;> simp only [sameKind, Bool.false_eq_true] at second ⊢
    case array.array.array left middle right | map.map.map left middle right =>
      exact same_trans left middle right first second
    case named.named.named => exact PartialEquivBEq.trans first second
    case primitive.primitive.primitive =>
      have ⟨bases, formats⟩ := Bool.and_eq_true_iff.mp first
      have ⟨alsoBases, alsoFormats⟩ := Bool.and_eq_true_iff.mp second
      exact Bool.and_eq_true_iff.mpr
        ⟨PartialEquivBEq.trans bases alsoBases, PartialEquivBEq.trans formats alsoFormats⟩

instance : PartialEquivBEq TypeExpr := ⟨same_symm _ _, same_trans _ _ _⟩

instance : PartialEquivBEq (TypeKind TypeExpr) :=
  -- A kind is compared as the type of that kind is which says nothing else.
  partialEquivBEq_comap (fun kind => (⟨kind, false, {}⟩ : TypeExpr)) fun left right => by
    change sameKind left right = same _ _
    rw [same, show (({} : Constraints) == {}) = true from rfl, Bool.and_true]
    exact (Bool.and_true _).symm

end TypeExpr

/-- An equivalence of kinds: equal ones are equivalent, and it is symmetric and transitive. -/
structure TypeKind.IsEquivalence (equivalent : TypeKind TypeExpr → TypeKind TypeExpr → Bool) :
    Prop where
  of_beq {left right : TypeKind TypeExpr} :
    (left == right) = true → equivalent left right = true
  symm {left right : TypeKind TypeExpr} :
    equivalent left right = true → equivalent right left = true
  trans {left middle right : TypeKind TypeExpr} : equivalent left middle = true →
    equivalent middle right = true → equivalent left right = true

end ApiTypes

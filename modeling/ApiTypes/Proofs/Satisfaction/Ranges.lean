import ApiTypes.Proofs.PartialEquivalence
import ApiTypes.Proofs.Satisfaction.Intersection

/-!
The ranges of constraints: which numbers, lengths and counts of items they admit, those of several sets
of constraints together, and when there are none.
-/

namespace ApiTypes

/-- A number lies within bounds that may be absent. -/
structure WithinBounds (least greatest : Option Bound) (number : ℚ) : Prop where
  least : ∀ bound ∈ least, bound.IsBelow number
  greatest : ∀ bound ∈ greatest, bound.IsAbove number

/-- A count lies within bounds that may be absent. -/
structure WithinCounts (least most : Option Nat) (count : Nat) : Prop where
  least : ∀ bound ∈ least, bound ≤ count
  most : ∀ bound ∈ most, count ≤ bound

/-- A bound is a finite number. -/
def Bound.IsFinite (bound : Bound) : Prop := ∃ value, bound.value.rational? = some value

namespace Bound

variable {left right : Bound} {first second : ℚ} (isFirst : left.value.rational? = some first)
  (isSecond : right.value.rational? = some second)

include isFirst

/-- A finite bound is compared by its value. -/
theorem isBelow_iff (number : ℚ) :
    left.IsBelow number ↔ first < number ∨ first = number ∧ left.exclusive = false := by
  rw [IsBelow, isFirst]
  cases left.exclusive <;> simp [le_iff_lt_or_eq]

/-- A finite bound is compared by its value from above as well. -/
theorem isAbove_iff (number : ℚ) :
    left.IsAbove number ↔ number < first ∨ first = number ∧ left.exclusive = false := by
  rw [IsAbove, isFirst]
  cases left.exclusive <;> simp [le_iff_lt_or_eq, eq_comm]

end Bound

namespace Binary64

/-- Finite numbers are equal if their exact values are. -/
theorem beq_iff_of_rational {left right : Binary64} {first second : ℚ}
    (isFirst : left.rational? = some first) (isSecond : right.rational? = some second) :
    (left == right) = true ↔ first = second := by
  rw [beq_iff]
  constructor
  · rintro (⟨value, isLeft, isRight⟩ | ⟨_, rfl, _⟩)
    · cases isFirst.symm.trans isLeft
      cases isSecond.symm.trans isRight
      rfl
    · cases isFirst
  · rintro rfl
    exact .inl ⟨first, isFirst, isSecond⟩

end Binary64

namespace Constraints

/-- The bounds of numbers are finite. -/
structure Bounded (constraints : Constraints) : Prop where
  minimum : ∀ bound ∈ constraints.minimum, bound.IsFinite
  maximum : ∀ bound ∈ constraints.maximum, bound.IsFinite

/-- Some number, some length and some count of items are each admitted by all sets of constraints. -/
structure Satisfiable (given : List Constraints) : Prop where
  numbers : ∃ number, ∀ each ∈ given, WithinBounds each.minimum each.maximum number
  lengths : ∃ length, ∀ each ∈ given, WithinCounts each.minLength each.maxLength length
  items : ∃ count, ∀ each ∈ given, WithinCounts each.minItems each.maxItems count

/-- Constraints have finite bounds, and each of their ranges has some value. -/
structure HasRanges (constraints : Constraints) : Prop where
  bounded : constraints.Bounded
  satisfiable : Satisfiable [constraints]

namespace Satisfiable

/-- Without constraints, every range has a value. -/
theorem nil : Satisfiable [] :=
  ⟨⟨0, by simp⟩, ⟨0, by simp⟩, 0, by simp⟩

/-- Ranges that have a value have one for fewer constraints. -/
theorem left {given more : List Constraints} (satisfiable : Satisfiable (given ++ more)) :
    Satisfiable given where
  numbers := satisfiable.numbers.imp fun _ within _ isGiven => within _ (List.mem_append_left _ isGiven)
  lengths := satisfiable.lengths.imp fun _ within _ isGiven => within _ (List.mem_append_left _ isGiven)
  items := satisfiable.items.imp fun _ within _ isGiven => within _ (List.mem_append_left _ isGiven)

/-- Ranges that have a value by themselves have one together if there is at most one of each. -/
theorem of_length_le_one {given : List Constraints}
    (ranged : ∀ constraints ∈ given, constraints.HasRanges) (few : given.length ≤ 1) :
    Satisfiable given := by
  cases given with
  | nil => exact .nil
  | cons only rest =>
    obtain rfl : rest = [] := by simpa using few
    exact (ranged only List.mem_cons_self).satisfiable

end Satisfiable

/-- The ranges of constraints admit just what those of several sets of constraints admit together. -/
structure Narrows (constraints : Constraints) (given : List Constraints) : Prop where
  bounded : constraints.Bounded
  numbers : ∀ number, WithinBounds constraints.minimum constraints.maximum number ↔
    ∀ each ∈ given, WithinBounds each.minimum each.maximum number
  lengths : ∀ length, WithinCounts constraints.minLength constraints.maxLength length ↔
    ∀ each ∈ given, WithinCounts each.minLength each.maxLength length
  items : ∀ count, WithinCounts constraints.minItems constraints.maxItems count ↔
    ∀ each ∈ given, WithinCounts each.minItems each.maxItems count

/-- The stricter of two bounds is met where both are, if whichever is stricter gives the other one. -/
theorem stricter_iff {beyond : Binary64 → Binary64 → Bool} {meets : Bound → Prop}
    {left right : Option Bound}
    (gives : ∀ first ∈ left, ∀ second ∈ right,
      if beyond second.value first.value || second.value == first.value && second.exclusive then
        meets second → meets first
      else meets first → meets second) :
    (∀ bound ∈ stricter beyond left right, meets bound) ↔
      (∀ bound ∈ left, meets bound) ∧ ∀ bound ∈ right, meets bound := by
  cases left with
  | none => cases right <;> simp [stricter]
  | some first => cases right with
    | none => simp [stricter]
    | some second =>
      have given := gives first rfl second rfl
      simp only [stricter, Option.mem_def, Option.some.injEq, forall_eq']
      -- Whichever bound is kept, meeting it gives the one that is dropped.
      split
      · rename_i isStricter
        rw [if_pos isStricter] at given
        simpa using given
      · rename_i notStricter
        rw [if_neg notStricter] at given
        simpa using given

section

variable {left right : Option Bound} (leftFinite : ∀ bound ∈ left, bound.IsFinite)
  (rightFinite : ∀ bound ∈ right, bound.IsFinite) (number : ℚ)

include leftFinite rightFinite

/-- The stricter of two bounds from below is met where both are. -/
theorem isBelow_stricter_iff :
    (∀ bound ∈ stricter (fun value other => Binary64.lt other value) left right,
      bound.IsBelow number) ↔
      (∀ bound ∈ left, bound.IsBelow number) ∧ ∀ bound ∈ right, bound.IsBelow number := by
  refine stricter_iff fun first isLeft second isRight => ?_
  obtain ⟨low, isLow⟩ := leftFinite first isLeft
  obtain ⟨high, isHigh⟩ := rightFinite second isRight
  -- Of equal bounds the exclusive one is the stricter, which is what is left to compare by cases.
  simp only [Bool.or_eq_true, Bool.and_eq_true, Binary64.lt_iff isLow isHigh,
    Binary64.beq_iff_of_rational isHigh isLow, Bound.isBelow_iff isLow, Bound.isBelow_iff isHigh]
  grind

/-- The stricter of two bounds from above is met where both are. -/
theorem isAbove_stricter_iff :
    (∀ bound ∈ stricter Binary64.lt left right, bound.IsAbove number) ↔
      (∀ bound ∈ left, bound.IsAbove number) ∧ ∀ bound ∈ right, bound.IsAbove number := by
  refine stricter_iff fun first isLeft second isRight => ?_
  obtain ⟨high, isHigh⟩ := leftFinite first isLeft
  obtain ⟨low, isLow⟩ := rightFinite second isRight
  -- From above the order is the other way round, and the exclusive one is the stricter again.
  simp only [Bool.or_eq_true, Bool.and_eq_true, Binary64.lt_iff isLow isHigh,
    Binary64.beq_iff_of_rational isLow isHigh, Bound.isAbove_iff isLow, Bound.isAbove_iff isHigh]
  grind

end

/-- Counts within the narrower of two ranges are within both. -/
theorem withinCounts_narrow_iff (least most moreLeast moreMost : Option Nat) (count : Nat) :
    WithinCounts (narrow max least moreLeast) (narrow min most moreMost) count ↔
      WithinCounts least most count ∧ WithinCounts moreLeast moreMost count := by
  have lower : (∀ bound ∈ narrow max least moreLeast, bound ≤ count) ↔
      (∀ bound ∈ least, bound ≤ count) ∧ ∀ bound ∈ moreLeast, bound ≤ count := by
    cases least <;> cases moreLeast <;> simp [narrow]
  have upper : (∀ bound ∈ narrow min most moreMost, count ≤ bound) ↔
      (∀ bound ∈ most, count ≤ bound) ∧ ∀ bound ∈ moreMost, count ≤ bound := by
    cases most <;> cases moreMost <;> simp [narrow]
  constructor
  · rintro ⟨low, high⟩
    exact ⟨⟨(lower.mp low).1, (upper.mp high).1⟩, (lower.mp low).2, (upper.mp high).2⟩
  · rintro ⟨⟨low, high⟩, moreLow, moreHigh⟩
    exact ⟨lower.mpr ⟨low, moreLow⟩, upper.mpr ⟨high, moreHigh⟩⟩

/-- Numbers within the stricter of two pairs of finite bounds are within both. -/
theorem withinBounds_stricter_iff {left right : Constraints} (leftBounded : left.Bounded)
    (rightBounded : right.Bounded) (number : ℚ) :
    WithinBounds (stricter (fun value other => Binary64.lt other value) left.minimum right.minimum)
        (stricter Binary64.lt left.maximum right.maximum) number ↔
      WithinBounds left.minimum left.maximum number ∧
        WithinBounds right.minimum right.maximum number := by
  have lower := isBelow_stricter_iff leftBounded.minimum rightBounded.minimum number
  have upper := isAbove_stricter_iff leftBounded.maximum rightBounded.maximum number
  constructor
  · rintro ⟨low, high⟩
    exact ⟨⟨(lower.mp low).1, (upper.mp high).1⟩, (lower.mp low).2, (upper.mp high).2⟩
  · rintro ⟨⟨low, high⟩, moreLow, moreHigh⟩
    exact ⟨lower.mpr ⟨low, moreLow⟩, upper.mpr ⟨high, moreHigh⟩⟩

/-- Constraints with finite bounds narrow themselves. -/
theorem Bounded.narrows {constraints : Constraints} (bounded : constraints.Bounded) :
    constraints.Narrows [constraints] := by
  refine ⟨bounded, ?_, ?_, ?_⟩ <;> simp

/-- The intersection with further constraints narrows these as well. -/
theorem Narrows.intersect {constraints more : Constraints} {given : List Constraints}
    (narrows : constraints.Narrows given) (bounded : more.Bounded) (field : String) :
    (constraints.intersect field more).1.Narrows (given ++ [more]) where
  bounded :=
    { minimum := fun bound isBound => by
        simp only [Constraints.intersect] at isBound
        exact (mem_of_stricter isBound).elim (narrows.bounded.minimum bound) (bounded.minimum bound)
      maximum := fun bound isBound => by
        simp only [Constraints.intersect] at isBound
        exact (mem_of_stricter isBound).elim (narrows.bounded.maximum bound) (bounded.maximum bound) }
  numbers number := by
    simp only [Constraints.intersect, withinBounds_stricter_iff narrows.bounded bounded,
      narrows.numbers, List.forall_mem_append, List.forall_mem_singleton]
  lengths length := by
    simp only [Constraints.intersect, withinCounts_narrow_iff, narrows.lengths,
      List.forall_mem_append, List.forall_mem_singleton]
  items count := by
    simp only [Constraints.intersect, withinCounts_narrow_iff, narrows.items,
      List.forall_mem_append, List.forall_mem_singleton]

/-- Bounds of counts leave some count between them unless they exclude all. -/
theorem excludesCounts_eq_false_iff (least most : Option Nat) :
    excludesCounts least most = false ↔ ∃ count, WithinCounts least most count := by
  cases least with
  | none => exact ⟨fun _ => ⟨0, nofun, fun bound _ => Nat.zero_le bound⟩, fun _ => rfl⟩
  | some low => cases most with
    | none => exact ⟨fun _ => ⟨low, fun bound isBound => (Option.some.inj isBound).ge, nofun⟩, fun _ => rfl⟩
    | some high =>
      rw [excludesCounts, decide_eq_false_iff_not, not_lt]
      constructor
      · -- The least count is itself within the bounds.
        intro ordered
        exact ⟨low, fun bound isBound => (Option.some.inj isBound).ge,
          fun bound isBound => Option.some.inj isBound ▸ ordered⟩
      · rintro ⟨count, least, most⟩
        exact (least low rfl).trans (most high rfl)

/-- Finite bounds of numbers leave some number between them unless they exclude all. -/
theorem excludesNumbers_eq_false_iff {least greatest : Option Bound}
    (leastFinite : ∀ bound ∈ least, bound.IsFinite)
    (greatestFinite : ∀ bound ∈ greatest, bound.IsFinite) :
    excludesNumbers least greatest = false ↔ ∃ number, WithinBounds least greatest number := by
  cases least with
  | none => cases greatest with
    | none => exact ⟨fun _ => ⟨0, by simp, by simp⟩, fun _ => rfl⟩
    | some greatest =>
      -- Without a bound on the other side, there is a number just beyond the one that is given.
      obtain ⟨high, isHigh⟩ := greatestFinite greatest rfl
      refine ⟨fun _ => ⟨high - 1, by simp, fun bound isBound => ?_⟩, fun _ => rfl⟩
      cases isBound
      exact (Bound.isAbove_iff isHigh _).mpr (.inl (sub_one_lt high))
  | some least =>
    obtain ⟨low, isLow⟩ := leastFinite least rfl
    cases greatest with
    | none =>
      refine ⟨fun _ => ⟨low + 1, fun bound isBound => ?_, by simp⟩, fun _ => rfl⟩
      cases isBound
      exact (Bound.isBelow_iff isLow _).mpr (.inl (lt_add_one low))
    | some greatest =>
      obtain ⟨high, isHigh⟩ := greatestFinite greatest rfl
      have within (number : ℚ) : WithinBounds (some least) (some greatest) number ↔
          least.IsBelow number ∧ greatest.IsAbove number :=
        ⟨fun ⟨below, above⟩ => ⟨below least rfl, above greatest rfl⟩,
          fun ⟨below, above⟩ => ⟨fun _ isBound => Option.some.inj isBound ▸ below,
            fun _ isBound => Option.some.inj isBound ▸ above⟩⟩
      simp only [within, Bound.isBelow_iff isLow, Bound.isAbove_iff isHigh]
      -- In exact values, the bounds are in order, or equal and both included.
      have excluded : excludesNumbers (some least) (some greatest) = false ↔
          low < high ∨ low = high ∧ least.exclusive = false ∧ greatest.exclusive = false := by
        rw [excludesNumbers, Bool.or_eq_false_iff, ← Bool.not_eq_true,
          Binary64.lt_iff isHigh isLow, ← Bool.not_eq_true, Bool.and_eq_true,
          Binary64.beq_iff_of_rational isLow isHigh]
        grind
      rw [excluded]
      constructor
      · rintro (less | ⟨rfl, leastIncluded, greatestIncluded⟩)
        · -- There is a number in the middle between different bounds.
          exact ⟨(low + high) / 2, .inl (by linarith), .inl (by linarith)⟩
        · exact ⟨low, .inr ⟨rfl, leastIncluded⟩, .inr ⟨rfl, greatestIncluded⟩⟩
      · rintro ⟨number, below, above⟩
        grind

/-- A range is empty if no value is admitted by all the constraints that are narrowed. -/
theorem Narrows.hasEmptyRange_iff {constraints : Constraints} {given : List Constraints}
    (narrows : constraints.Narrows given) :
    constraints.hasEmptyRange = false ↔ Satisfiable given := by
  -- Each of the three ranges is checked by its own bounds.
  have parts : constraints.hasEmptyRange = false ↔
      (∃ number, WithinBounds constraints.minimum constraints.maximum number) ∧
        (∃ length, WithinCounts constraints.minLength constraints.maxLength length) ∧
        ∃ count, WithinCounts constraints.minItems constraints.maxItems count := by
    rw [← excludesNumbers_eq_false_iff narrows.bounded.minimum narrows.bounded.maximum,
      ← excludesCounts_eq_false_iff, ← excludesCounts_eq_false_iff]
    simp [hasEmptyRange, isEmptyRange]
  simp only [parts, narrows.numbers, narrows.lengths, narrows.items]
  exact ⟨fun ⟨numbers, lengths, items⟩ => ⟨numbers, lengths, items⟩,
    fun ⟨numbers, lengths, items⟩ => ⟨numbers, lengths, items⟩⟩

end Constraints

end ApiTypes

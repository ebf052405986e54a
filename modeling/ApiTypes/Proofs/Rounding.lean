import Mathlib.Data.Nat.Cast.Order.Field
import Mathlib.Tactic.LinearCombination
import ApiTypes.Proofs.JsonTrees
import ApiTypes.Proofs.Satisfaction.Intersection

/-!
How far rounding takes a quotient from its exact value, and what that leaves of it: a quotient of whole
numbers below `2 ^ 53` that is rounded to a whole one is whole.
-/

namespace ApiTypes.Binary64

/-- A quotient in units of a grid is the quotient of what is counted. -/
theorem quotientOnGrid_mul (numerator : Nat) {denominator : Nat} (positive : 0 < denominator)
    (grid : Int) :
    ((quotientOnGrid numerator denominator grid).1 : ℚ) /
        (quotientOnGrid numerator denominator grid).2 * 2 ^ grid = numerator / denominator := by
  -- Of the two powers, the one that is not needed is one.
  have split : (2 : ℚ) ^ (-grid).toNat * 2 ^ grid = 2 ^ grid.toNat := by
    rw [← zpow_natCast, ← zpow_natCast, ← zpow_add₀ two_ne_zero]
    congr 1
    omega
  have unit : (2 : ℚ) ^ grid.toNat ≠ 0 := pow_ne_zero _ two_ne_zero
  have bottom : (denominator : ℚ) ≠ 0 := by exact_mod_cast positive.ne'
  simp only [quotientOnGrid]
  push_cast
  rw [div_mul_eq_mul_div, mul_assoc, split]
  field_simp

/-- The nearest natural is at most half a unit away from a quotient. -/
theorem abs_divNearest_sub_le (numerator : Nat) {denominator : Nat} (positive : 0 < denominator) :
    |(divNearest numerator denominator : ℚ) - numerator / denominator| ≤ 1 / 2 := by
  have bottom : (0 : ℚ) < denominator := by exact_mod_cast positive
  have whole : (numerator : ℚ) =
      denominator * (numerator / denominator : Nat) + (numerator % denominator : Nat) := by
    exact_mod_cast (Nat.div_add_mod numerator denominator).symm
  have below : ((numerator % denominator : Nat) : ℚ) < denominator := by
    exact_mod_cast Nat.mod_lt numerator positive
  have least : (0 : ℚ) ≤ (numerator % denominator : Nat) := Nat.cast_nonneg _
  have split : (numerator : ℚ) / denominator = (numerator / denominator : Nat) +
      (numerator % denominator : Nat) / denominator := by
    rw [whole, add_div, mul_div_cancel_left₀ _ bottom.ne']
  rw [split, divNearest]
  split
  · -- Rounded up, the remainder is at least half of the denominator.
    rename_i up
    have half : (denominator : ℚ) ≤ 2 * (numerator % denominator : Nat) := by
      exact_mod_cast up.elim le_of_lt fun tie => tie.1.ge
    have part : (1 : ℚ) / 2 ≤ (numerator % denominator : Nat) / denominator := by
      rw [div_le_div_iff₀ two_pos bottom]
      linarith
    have less : ((numerator % denominator : Nat) : ℚ) / denominator ≤ 1 := by
      rw [div_le_one bottom]
      exact below.le
    rw [abs_le]
    push_cast
    constructor <;> linarith
  · -- Rounded down, it is at most half of that.
    rename_i down
    have half : 2 * ((numerator % denominator : Nat) : ℚ) ≤ denominator := by
      exact_mod_cast not_lt.mp fun more => down (.inl more)
    have part : ((numerator % denominator : Nat) : ℚ) / denominator ≤ 1 / 2 := by
      rw [div_le_div_iff₀ bottom two_pos]
      linarith
    have more : (0 : ℚ) ≤ (numerator % denominator : Nat) / denominator := div_nonneg least bottom.le
    rw [abs_le]
    constructor <;> linarith

/-- A quotient is not below the power of two that the lengths of its two sides give. -/
theorem two_zpow_log2_le {numerator denominator : Nat} (numeratorPositive : 0 < numerator)
    (positive : 0 < denominator) :
    (2 : ℚ) ^ ((numerator.log2 : Int) - denominator.log2 - 1) ≤ numerator / denominator := by
  have bottom : (0 : ℚ) < denominator := by exact_mod_cast positive
  have least : (2 : ℚ) ^ numerator.log2 ≤ numerator := by
    exact_mod_cast Nat.log2_self_le numeratorPositive.ne'
  have most : (denominator : ℚ) ≤ 2 ^ (denominator.log2 + 1) := by
    exact_mod_cast (Nat.lt_log2_self (n := denominator)).le
  have split : (2 : ℚ) ^ ((numerator.log2 : Int) - denominator.log2 - 1) *
      2 ^ (denominator.log2 + 1) = 2 ^ numerator.log2 := by
    rw [← zpow_natCast, ← zpow_natCast, ← zpow_add₀ two_ne_zero]
    congr 1
    push_cast
    ring
  -- The numerator has its leading bit, and the denominator is below the next power of two.
  rw [le_div_iff₀ bottom]
  calc (2 : ℚ) ^ ((numerator.log2 : Int) - denominator.log2 - 1) * denominator
      ≤ 2 ^ ((numerator.log2 : Int) - denominator.log2 - 1) * 2 ^ (denominator.log2 + 1) :=
        mul_le_mul_of_nonneg_left most (zpow_pos two_pos _).le
    _ ≤ numerator := split.trans_le least

/-- On its grid a quotient has all of its 53 bits, unless the grid is the finest one. -/
theorem le_of_gridOf {numerator denominator : Nat} (numeratorPositive : 0 < numerator)
    (positive : 0 < denominator) : gridOf numerator denominator = -1074 ∨
      (2 : ℚ) ^ 52 * 2 ^ gridOf numerator denominator ≤ numerator / denominator := by
  have bottom : (0 : ℚ) < denominator := by exact_mod_cast positive
  obtain ⟨exponent, isGrid, least⟩ : ∃ exponent, gridOf numerator denominator = max (-1074) exponent ∧
      (2 : ℚ) ^ 52 * 2 ^ exponent ≤ numerator / denominator := by
    refine ⟨_, rfl, ?_⟩
    -- The guess is one too high exactly if the quotient has only 52 bits on it.
    split
    · refine le_of_eq_of_le ?_ (two_zpow_log2_le numeratorPositive positive)
      rw [← zpow_natCast, ← zpow_add₀ two_ne_zero]
      congr 1
      push_cast
      ring
    · rename_i full
      rw [← quotientOnGrid_mul numerator positive ((numerator.log2 : Int) - denominator.log2 - 52)]
      refine mul_le_mul_of_nonneg_right ?_ (zpow_pos two_pos _).le
      refine le_trans ?_ Nat.cast_div_le
      exact_mod_cast not_lt.mp full
  rcases max_choice (-1074) exponent with finest | same
  · exact .inl (isGrid.trans finest)
  · rw [isGrid, same]
    exact .inr least

/-- On its grid a quotient has at most 53 bits. -/
theorem lt_of_gridOf (numerator : Nat) {denominator : Nat} (positive : 0 < denominator) :
    (numerator : ℚ) / denominator < 2 ^ 53 * 2 ^ gridOf numerator denominator := by
  have bottom : (0 : ℚ) < denominator := by exact_mod_cast positive
  have most : (numerator : ℚ) < 2 ^ (numerator.log2 + 1) := by exact_mod_cast Nat.lt_log2_self
  have least : (2 : ℚ) ^ denominator.log2 ≤ denominator := by
    exact_mod_cast Nat.log2_self_le positive.ne'
  obtain ⟨exponent, isGrid, less⟩ : ∃ exponent, gridOf numerator denominator = max (-1074) exponent ∧
      (numerator : ℚ) / denominator < 2 ^ 53 * 2 ^ exponent := by
    refine ⟨_, rfl, ?_⟩
    -- On the guessed grid it is below `2 ^ 53`, and the next finer grid is only taken below `2 ^ 52`.
    split
    · rename_i short
      have guess := quotientOnGrid_mul numerator positive ((numerator.log2 : Int) - denominator.log2 - 52)
      have bottomPositive : (0 : ℚ) < (quotientOnGrid numerator denominator
          ((numerator.log2 : Int) - denominator.log2 - 52)).2 := by
        exact_mod_cast Nat.mul_pos positive (Nat.two_pow_pos _)
      rw [Nat.div_lt_iff_lt_mul (by exact_mod_cast bottomPositive)] at short
      have below : ((quotientOnGrid numerator denominator
          ((numerator.log2 : Int) - denominator.log2 - 52)).1 : ℚ) /
          (quotientOnGrid numerator denominator ((numerator.log2 : Int) - denominator.log2 - 52)).2 <
            2 ^ 52 := by
        rw [div_lt_iff₀ bottomPositive]
        exact_mod_cast short
      rw [← guess, zpow_sub_one₀ two_ne_zero, mul_left_comm]
      have scaled := mul_lt_mul_of_pos_right below
        (zpow_pos two_pos ((numerator.log2 : Int) - denominator.log2 - 52) : (0 : ℚ) < _)
      linarith
    · have split : (2 : ℚ) ^ 53 * 2 ^ ((numerator.log2 : Int) - denominator.log2 - 52) *
          2 ^ denominator.log2 = 2 ^ (numerator.log2 + 1) := by
        rw [← zpow_natCast, ← zpow_natCast, ← zpow_natCast, ← zpow_add₀ two_ne_zero,
          ← zpow_add₀ two_ne_zero]
        congr 1
        push_cast
        ring
      rw [div_lt_iff₀ bottom]
      calc (numerator : ℚ) < 2 ^ (numerator.log2 + 1) := most
        _ = 2 ^ 53 * 2 ^ ((numerator.log2 : Int) - denominator.log2 - 52) * 2 ^ denominator.log2 :=
          split.symm
        _ ≤ 2 ^ 53 * 2 ^ ((numerator.log2 : Int) - denominator.log2 - 52) * denominator :=
          mul_le_mul_of_nonneg_left least (by positivity)
  rw [isGrid]
  exact less.trans_le (mul_le_mul_of_nonneg_left
    (zpow_le_zpow_right₀ one_le_two (le_max_right _ _)) (by positivity))

/-- What is rounded on a grid is as many units as are the nearest to it, if it is finite. -/
theorem rational?_ofRounded {significand : Nat} {exponent : Int} {value : ℚ}
    (isValue : (ofRounded false significand exponent).rational? = some value) :
    value = significand * 2 ^ exponent := by
  have plain : ∀ {significand : Nat} {exponent : Int},
      rational? (if canonical : Canonical significand exponent then
        .finite false significand exponent canonical else .infinite false) = some value →
        value = significand * 2 ^ exponent := by
    intro significand exponent isValue
    split at isValue
    · cases isValue
      simp [signed]
    · cases isValue
  unfold ofRounded at isValue
  -- A significand that is rounded up to 54 bits is halved, with the exponent one higher.
  by_cases full : significand = 2 ^ 53
  · simp only [if_pos full] at isValue
    rw [plain isValue, full, zpow_add_one₀ two_ne_zero]
    push_cast
    ring
  · simp only [if_neg full] at isValue
    exact plain isValue

/-- A quotient that is at least one is rounded by at most one part in `2 ^ 53`. -/
theorem abs_sub_ofRatio_le {numerator denominator : Nat} {value : ℚ} (positive : 0 < denominator)
    (atLeast : denominator ≤ numerator)
    (isValue : (ofRatio false numerator denominator).rational? = some value) :
    |value - numerator / denominator| * 2 ^ 53 ≤ numerator / denominator := by
  have numeratorPositive : 0 < numerator := positive.trans_le atLeast
  have bottom : (0 : ℚ) < denominator := by exact_mod_cast positive
  have one : (1 : ℚ) ≤ numerator / denominator := by
    rw [le_div_iff₀ bottom, one_mul]
    exact_mod_cast atLeast
  rw [ofRatio, if_neg numeratorPositive.ne'] at isValue
  simp only at isValue
  have same := rational?_ofRounded isValue
  generalize isGrid : gridOf numerator denominator = grid at same
  have bottomPositive : 0 < (quotientOnGrid numerator denominator grid).2 :=
    Nat.mul_pos positive (Nat.two_pow_pos _)
  -- The error is half a unit, and the quotient has at least `2 ^ 52` units.
  have error : |value - numerator / denominator| ≤ 1 / 2 * 2 ^ grid := by
    rw [same, ← quotientOnGrid_mul numerator positive grid, ← sub_mul, abs_mul,
      abs_of_pos (zpow_pos two_pos grid : (0 : ℚ) < 2 ^ grid)]
    exact mul_le_mul_of_nonneg_right (abs_divNearest_sub_le _ bottomPositive) (zpow_pos two_pos _).le
  have units : (2 : ℚ) ^ 52 * 2 ^ grid ≤ numerator / denominator := by
    rcases isGrid ▸ le_of_gridOf numeratorPositive positive with finest | units
    · -- On the finest grid, `2 ^ 52` units are far less than one.
      refine le_trans ?_ one
      rw [finest, ← zpow_natCast, ← zpow_add₀ two_ne_zero]
      exact zpow_le_one_of_nonpos₀ one_le_two (by norm_num)
    · exact units
  linarith

/-- A negative magnitude is not positive. -/
theorem not_signed_pos (significand : Nat) (exponent : Int) :
    ¬0 < (signed true significand : ℚ) * 2 ^ exponent := by
  refine not_lt.mpr (mul_nonpos_of_nonpos_of_nonneg ?_ (zpow_pos two_pos _).le)
  simp [signed]

/-- The quotient of positive numbers is that of two naturals in the same proportion, rounded. -/
theorem exists_ofRatio_of_div {left right : Binary64} {first second : ℚ}
    (isFirst : left.rational? = some first) (isSecond : right.rational? = some second)
    (firstPositive : 0 < first) (secondPositive : 0 < second) :
    ∃ numerator denominator : Nat, 0 < denominator ∧
      left.div right = ofRatio false numerator denominator ∧
      (numerator : ℚ) / denominator = first / second := by
  match left, right with
  | .nan, _ | .infinite _, _ => cases isFirst
  | .finite .., .nan | .finite .., .infinite _ => cases isSecond
  | .finite true significand exponent _, _ =>
    cases isFirst
    exact absurd firstPositive (not_signed_pos _ _)
  | .finite false _ _ _, .finite true significand exponent _ =>
    cases isSecond
    exact absurd secondPositive (not_signed_pos _ _)
  | .finite false top topExponent _, .finite false bottom bottomExponent _ =>
    cases isFirst
    cases isSecond
    simp only [signed, Bool.false_eq_true, if_false, Int.cast_natCast] at secondPositive ⊢
    have bottomPositive : 0 < bottom := by
      rcases Nat.eq_zero_or_pos bottom with rfl | positive
      · simp at secondPositive
      · exact positive
    refine ⟨_, _, Nat.mul_pos bottomPositive (Nat.two_pow_pos _), if_neg bottomPositive.ne', ?_⟩
    -- The exponents differ by the power of two that is put on one side.
    have split : (2 : ℚ) ^ (topExponent - bottomExponent).toNat * 2 ^ bottomExponent =
        2 ^ (-(topExponent - bottomExponent)).toNat * 2 ^ topExponent := by
      rw [← zpow_natCast, ← zpow_natCast, ← zpow_add₀ two_ne_zero, ← zpow_add₀ two_ne_zero]
      congr 1
      omega
    push_cast
    rw [div_eq_div_iff (by positivity) (by positivity)]
    linear_combination (top * bottom : ℚ) * split

/-- A whole number has an integer as its exact value. -/
theorem exists_int_of_isWhole {number : Binary64} (isWhole : number.isWhole = true) :
    ∃ integer : ℤ, number.rational? = some (integer : ℚ) := by
  -- A number is whole if its significand is divisible by the power that it is shifted down by.
  match number with
  | .nan | .infinite _ => cases isWhole
  | .finite negative significand exponent _ =>
    obtain ⟨natural, _, magnitude⟩ := exists_nat_of_dvd exponent
      (Nat.dvd_of_mod_eq_zero (by simpa [Binary64.isWhole] using isWhole) :
        2 ^ (-exponent).toNat ∣ significand)
    refine ⟨signed negative natural, ?_⟩
    cases negative <;> simp [rational?, signed, ← magnitude]

/-- A number whose exact value is a natural is whole. -/
theorem isWhole_of_natural {number : Binary64} {natural : Nat}
    (isValue : number.rational? = some (natural : ℚ)) : number.isWhole = true := by
  match number with
  | .nan | .infinite _ => cases isValue
  | .finite negative significand exponent _ =>
    have same : (signed negative significand : ℚ) * 2 ^ exponent = natural := Option.some.inj isValue
    rw [isWhole, beq_iff_eq]
    -- Shifted up by what its exponent is below zero, the natural is the significand.
    rcases le_total 0 exponent with up | down
    · rw [Int.toNat_of_nonpos (by omega), pow_zero, Nat.mod_one]
    · have split : (2 : ℚ) ^ exponent * 2 ^ (-exponent).toNat = 1 := by
        rw [← zpow_natCast, ← zpow_add₀ two_ne_zero, Int.toNat_of_nonneg (by omega), add_neg_cancel,
          zpow_zero]
      have scaled : (signed negative significand : ℚ) = natural * 2 ^ (-exponent).toNat := by
        rw [← same, mul_assoc, split, mul_one]
      have counted : signed negative significand = natural * 2 ^ (-exponent).toNat := by
        exact_mod_cast scaled
      have magnitude : significand = (natural * 2 ^ (-exponent).toNat : Nat) := by
        have size : (signed negative significand).natAbs = significand := by
          cases negative <;> simp [signed]
        rw [← size, counted, Int.natAbs_mul, Int.natAbs_natCast, Int.natAbs_pow]
        rfl
      rw [magnitude, Nat.mul_mod_left]

/-- A finite number is at most the greatest of its 53 bits on the coarsest grid. -/
theorem le_of_rational {number : Binary64} {value : ℚ} (isValue : number.rational? = some value) :
    value ≤ (2 ^ 53 - 1) * 2 ^ (971 : ℤ) := by
  match number with
  | .nan | .infinite _ => cases isValue
  | .finite negative significand exponent canonical =>
    cases isValue
    obtain ⟨bits, _, notHigh, _⟩ := canonical
    have most : (signed negative significand : ℚ) ≤ 2 ^ 53 - 1 := by
      have less : signed negative significand ≤ 2 ^ 53 - 1 := by
        cases negative <;> simp only [signed, if_true, Bool.false_eq_true, if_false] <;> omega
      exact_mod_cast less
    calc (signed negative significand : ℚ) * 2 ^ exponent ≤ (2 ^ 53 - 1) * 2 ^ exponent :=
          mul_le_mul_of_nonneg_right most (zpow_pos two_pos _).le
      _ ≤ (2 ^ 53 - 1) * 2 ^ (971 : ℤ) :=
          mul_le_mul_of_nonneg_left (zpow_le_zpow_right₀ one_le_two notHigh) (by norm_num)

/-- A quotient is rounded to at most a natural that it does not exceed. -/
theorem divNearest_le {most numerator denominator : Nat} (positive : 0 < denominator)
    (notMore : numerator ≤ most * denominator) : divNearest numerator denominator ≤ most := by
  have whole := Nat.div_add_mod numerator denominator
  rcases Nat.lt_or_ge (numerator / denominator) most with less | full
  · unfold divNearest
    dsimp only
    split <;> omega
  · -- If the whole part is as much already, then nothing is left to be rounded up.
    have least := Nat.mul_le_mul_left denominator full
    rw [Nat.mul_comm most] at notMore
    have none : numerator % denominator = 0 := by omega
    have same : numerator / denominator ≤ most := by
      rw [Nat.div_le_iff_le_mul_add_pred positive]
      omega
    unfold divNearest
    simp only [none, Nat.mul_zero]
    rw [if_neg (by omega)]
    exact same

/-- On a grid of whole units, what is rounded to a finite number is whole. -/
theorem isWhole_ofRounded {significand shift : Nat}
    (isFinite : (ofRounded false significand shift).isFinite = true) :
    (ofRounded false significand shift).isWhole = true := by
  obtain ⟨value, isValue⟩ : ∃ value, (ofRounded false significand shift).rational? = some value := by
    cases rounded : ofRounded false significand shift with
    | finite => exact ⟨_, rfl⟩
    | nan | infinite => simp [rounded, Binary64.isFinite] at isFinite
  have natural : value = (significand * 2 ^ shift : Nat) := by
    rw [rational?_ofRounded isValue, zpow_natCast]
    push_cast
    rfl
  exact isWhole_of_natural (natural ▸ isValue)

/-- A quotient that is exact and not beyond the finite range stays whole when it is rounded. -/
theorem isWhole_ofRatio {quotient denominator : Nat} (positive : 0 < denominator)
    (quotientPositive : 0 < quotient) (notBeyond : (quotient : ℚ) ≤ (2 ^ 53 - 1) * 2 ^ (971 : ℤ)) :
    (ofRatio false (quotient * denominator) denominator).isWhole = true := by
  have numeratorPositive := Nat.mul_pos quotientPositive positive
  have ratio : ((quotient * denominator : Nat) : ℚ) / denominator = quotient := by
    push_cast
    exact mul_div_cancel_right₀ _ (by exact_mod_cast positive.ne')
  have below := lt_of_gridOf (quotient * denominator) positive
  have notBelow := le_of_gridOf numeratorPositive positive
  have finest : -1074 ≤ gridOf (quotient * denominator) denominator := le_max_left _ _
  rw [ratio] at below notBelow
  rw [ofRatio, if_neg numeratorPositive.ne']
  simp only
  generalize gridOf (quotient * denominator) denominator = grid at below notBelow finest
  rcases le_total grid 0 with fine | coarse
  · -- On a finer grid than that of the wholes, the quotient is counted without a rest.
    obtain ⟨shift, rfl⟩ := Int.exists_eq_neg_ofNat fine
    have counted : divNearest (quotientOnGrid (quotient * denominator) denominator (-shift)).1
        (quotientOnGrid (quotient * denominator) denominator (-shift)).2 = quotient * 2 ^ shift := by
      have up : quotient * denominator * 2 ^ shift = denominator * (quotient * 2 ^ shift) := by ring
      simp [quotientOnGrid, divNearest, up, Nat.mul_div_cancel_left _ positive, positive.ne]
    have unit : (2 : ℚ) ^ (-(shift : ℤ)) * 2 ^ shift = 1 := by
      rw [← zpow_natCast, ← zpow_add₀ two_ne_zero, neg_add_cancel, zpow_zero]
    have bits : quotient * 2 ^ shift < 2 ^ 53 := by
      have scaled := mul_lt_mul_of_pos_right below (pow_pos two_pos shift : (0 : ℚ) < 2 ^ shift)
      rw [mul_assoc, unit, mul_one] at scaled
      exact_mod_cast scaled
    have full : 2 ^ 52 ≤ quotient * 2 ^ shift ∨ -(shift : ℤ) = -1074 := by
      refine notBelow.symm.imp_left fun notBelow => ?_
      have scaled := mul_le_mul_of_nonneg_right notBelow (pow_pos two_pos shift : (0 : ℚ) < 2 ^ shift).le
      rw [mul_assoc, unit, mul_one] at scaled
      exact_mod_cast scaled
    have canonical : Canonical (quotient * 2 ^ shift) (-shift) := ⟨bits, finest, by omega, full⟩
    rw [counted, ofRounded, if_neg bits.ne]
    simp only [dif_pos canonical, isWhole, neg_neg, Int.toNat_natCast, Nat.mul_mod_left, beq_self_eq_true]
  · -- On a coarser one, what is rounded to a finite number is whole.
    obtain ⟨shift, rfl⟩ := Int.eq_ofNat_of_zero_le coarse
    have notFinest : (shift : ℤ) ≠ -1074 := by omega
    replace notBelow := notBelow.resolve_left notFinest
    rw [zpow_natCast] at below notBelow
    have counted : quotientOnGrid (quotient * denominator) denominator shift =
        (quotient * denominator, denominator * 2 ^ shift) := by simp [quotientOnGrid]
    have bottomPositive := Nat.mul_pos positive (Nat.two_pow_pos shift)
    have scaled (bound : Nat) : bound * (denominator * 2 ^ shift) = bound * 2 ^ shift * denominator := by
      ring
    obtain ⟨least, most⟩ : 2 ^ 52 ≤ divNearest (quotient * denominator) (denominator * 2 ^ shift) ∧
        divNearest (quotient * denominator) (denominator * 2 ^ shift) ≤ 2 ^ 53 := by
      refine divNearest_mem bottomPositive ?_ ?_
      · rw [scaled]
        exact Nat.mul_le_mul_right _ (by exact_mod_cast notBelow)
      · rw [scaled]
        exact Nat.mul_lt_mul_of_pos_right (by exact_mod_cast below) positive
    rw [counted]
    refine isWhole_ofRounded ?_
    have notHigh : shift ≤ 971 := by
      by_contra high
      have more : (2 : ℚ) ^ (972 : ℤ) ≤ 2 ^ shift := by
        rw [← zpow_natCast]
        exact zpow_le_zpow_right₀ one_le_two (by omega)
      have double : (2 : ℚ) ^ (972 : ℤ) = 2 ^ (971 : ℤ) * 2 := zpow_add_one₀ two_ne_zero 971
      have unit : (0 : ℚ) < 2 ^ (971 : ℤ) := zpow_pos two_pos _
      rw [double] at more
      generalize (2 : ℚ) ^ (971 : ℤ) = greatest at notBeyond more unit
      linarith
    rcases Nat.lt_or_eq_of_le notHigh with less | coarsest
    · exact isFinite_ofRounded false least most (by omega) (by omega)
    · -- On the coarsest grid, the quotient is at most the greatest finite number, so it is not carried.
      have unit : (2 : ℚ) ^ (971 : ℤ) = 2 ^ shift := by
        rw [← zpow_natCast, coarsest]
        rfl
      have bounded : divNearest (quotient * denominator) (denominator * 2 ^ shift) ≤ 2 ^ 53 - 1 := by
        refine divNearest_le bottomPositive ?_
        rw [scaled]
        refine Nat.mul_le_mul_right _ ?_
        have greatest : (2 : ℚ) ^ 53 - 1 = (2 ^ 53 - 1 : Nat) := by norm_num
        rw [unit, greatest] at notBeyond
        exact_mod_cast notBeyond
      have canonical : Canonical (divNearest (quotient * denominator) (denominator * 2 ^ shift)) shift :=
        ⟨by omega, by omega, by omega, .inl least⟩
      have notFull : divNearest (quotient * denominator) (denominator * 2 ^ shift) ≠ 2 ^ 53 := by omega
      rw [ofRounded]
      simp only [if_neg notFull, dif_pos canonical]
      rfl

/-- A number below `2 ^ 53` is a multiple of another one if their quotient is rounded to a whole one. -/
theorem dvd_of_isWhole_div {left right : Binary64} {first second : Nat}
    (isFirst : left.rational? = some (first : ℚ)) (isSecond : right.rational? = some (second : ℚ))
    (positive : 0 < second) (atLeast : second ≤ first) (small : first < 2 ^ 53)
    (isWhole : (left.div right).isWhole = true) : second ∣ first := by
  have secondPositive : (0 : ℚ) < second := by exact_mod_cast positive
  obtain ⟨numerator, denominator, bottom, isRatio, ratio⟩ := exists_ofRatio_of_div isFirst isSecond
    (by exact_mod_cast positive.trans_le atLeast) secondPositive
  obtain ⟨quotient, isQuotient⟩ := exists_int_of_isWhole isWhole
  have denominatorPositive : (0 : ℚ) < denominator := by exact_mod_cast bottom
  have ordered : denominator ≤ numerator := by
    have more : (1 : ℚ) ≤ numerator / denominator := by
      rw [ratio, le_div_iff₀ secondPositive, one_mul]
      exact_mod_cast atLeast
    rw [le_div_iff₀ denominatorPositive, one_mul] at more
    exact_mod_cast more
  have near := abs_sub_ofRatio_le bottom ordered (isRatio ▸ isQuotient)
  rw [ratio] at near
  -- Multiplied by the divisor, the error is less than one, and so it is none.
  have close : |((quotient * second - first : ℤ) : ℚ)| < 1 := by
    have scaled : ((quotient * second - first : ℤ) : ℚ) = (quotient - first / second) * second := by
      push_cast
      rw [sub_mul, div_mul_cancel₀ _ secondPositive.ne']
    have bound := mul_le_mul_of_nonneg_right near secondPositive.le
    rw [div_mul_cancel₀ _ secondPositive.ne'] at bound
    have limit : (first : ℚ) < 2 ^ 53 := by exact_mod_cast small
    rw [scaled, abs_mul, abs_of_pos secondPositive]
    linarith
  have none : quotient * second - first = 0 := by
    have less : |quotient * (second : ℤ) - first| < 1 := by exact_mod_cast close
    exact Int.abs_lt_one_iff.mp less
  exact Int.natCast_dvd_natCast.mp ⟨quotient, by linarith⟩

end ApiTypes.Binary64

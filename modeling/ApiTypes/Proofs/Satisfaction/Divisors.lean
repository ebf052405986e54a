import ApiTypes.Proofs.Rounding
import ApiTypes.Proofs.Satisfaction.Ranges

/-!
What is divided by the divisor of an intersection. It stands for both divisors exactly if it is a multiple
of both: rounding may take it away from their least common multiple, but not as far as to another one.
-/

namespace ApiTypes

/-- A number is divided by a divisor that may be absent. -/
def DividedBy (divisor : Option Binary64) (number : ℚ) : Prop :=
  ∀ given ∈ divisor, given.Divides number

/-- A divisor is a positive number. -/
def Binary64.IsDivisor (divisor : Binary64) : Prop :=
  ∃ value, divisor.rational? = some value ∧ 0 < value

namespace Binary64

variable {divisor multiple : Binary64} {value number : ℚ}

/-- What divides a number divides the multiples of that. -/
theorem Divides.trans (isValue : multiple.rational? = some value) (divides : divisor.Divides value)
    (later : multiple.Divides number) : divisor.Divides number := by
  obtain ⟨given, isGiven, factor, isMultiple⟩ := divides
  obtain ⟨other, isOther⟩ := (divides_iff isValue number).mp later
  refine ⟨given, isGiven, other * factor, ?_⟩
  rw [isOther, isMultiple]
  push_cast
  ring

/-- Every number divides itself. -/
theorem divides_self (isValue : divisor.rational? = some value) : divisor.Divides value :=
  (divides_iff isValue value).mpr ⟨1, by simp⟩

/-- A divisor divides its own value. -/
theorem IsDivisor.divides_self (isDivisor : divisor.IsDivisor) :
    ∃ value, divisor.rational? = some value ∧ divisor.Divides value :=
  isDivisor.imp fun _ ⟨isValue, _⟩ => ⟨isValue, Binary64.divides_self isValue⟩

end Binary64

/-- A positive multiple of a number is that number if it is less than twice as much. -/
theorem eq_of_mul_lt_two {unit value : ℚ} {factor : ℤ} (isMultiple : value = factor * unit)
    (positive : 0 < value) (unitPositive : 0 < unit) (less : value < 2 * unit) : value = unit := by
  -- The factor lies strictly between zero and two.
  have above : (0 : ℚ) < factor := by
    rw [isMultiple] at positive
    exact (mul_pos_iff_of_pos_right unitPositive).mp positive
  have below : (factor : ℚ) < 2 := by
    rw [isMultiple] at less
    exact lt_of_mul_lt_mul_right less unitPositive.le
  have one : factor = 1 := by
    have : 0 < factor := by exact_mod_cast above
    have : factor < 2 := by exact_mod_cast below
    omega
  rw [isMultiple, one]
  simp

/-- A positive natural is rounded to a positive number below its double. -/
theorem Binary64.pos_and_lt_of_ofRatio {natural : Nat} {value : ℚ} (positive : 0 < natural)
    (isValue : (ofRatio false natural 1).rational? = some value) : 0 < value ∧ value < 2 * natural := by
  have exact' : (0 : ℚ) < natural := by exact_mod_cast positive
  -- It is rounded by less than itself.
  have near := abs_sub_ofRatio_le one_pos positive isValue
  rw [Nat.cast_one, div_one, ← le_div_iff₀ (by norm_num)] at near
  have ⟨below, above⟩ := abs_le.mp near
  exact ⟨by linarith, by linarith⟩

/--
A common multiple of two naturals below the double of what is computed of them as words, if that is a word
itself, is one of them or their least common multiple, which is then computed of words.
-/
theorem eq_of_commonMultiple {first second product : Nat} {value : ℚ} (firstPositive : 0 < first)
    (secondPositive : 0 < second)
    (isProduct : min (2 ^ 64 - 1) first / Nat.gcd (min (2 ^ 64 - 1) first) (min (2 ^ 64 - 1) second) *
      min (2 ^ 64 - 1) second = product)
    (fits : product < 2 ^ 64) (positive : 0 < value) (less : value < 2 * product)
    (byFirst : ∃ factor : ℤ, value = factor * first)
    (bySecond : ∃ factor : ℤ, value = factor * second) :
    value = first ∨ value = second ∨
      first < 2 ^ 64 ∧ second < 2 ^ 64 ∧ value = (first.lcm second : Nat) := by
  -- A natural of more than 64 bits is itself more than half of the product.
  have large {natural : Nat} (naturalPositive : 0 < natural) (isLarge : ¬natural < 2 ^ 64)
      (isMultiple : ∃ factor : ℤ, value = factor * natural) : value = natural := by
    obtain ⟨factor, isMultiple⟩ := isMultiple
    have more : (product : ℚ) < natural := by exact_mod_cast fits.trans_le (not_lt.mp isLarge)
    exact eq_of_mul_lt_two isMultiple positive (by exact_mod_cast naturalPositive) (by linarith)
  by_cases firstFits : first < 2 ^ 64
  swap
  · exact .inl (large firstPositive firstFits byFirst)
  by_cases secondFits : second < 2 ^ 64
  swap
  · exact .inr (.inl (large secondPositive secondFits bySecond))
  have isLeast := Binary64.wordProduct_eq_lcm firstFits secondFits
  obtain ⟨quotient, isQuotient⟩ := Binary64.exists_mul_lcm byFirst bySecond
  refine .inr (.inr ⟨firstFits, secondFits, eq_of_mul_lt_two isQuotient positive ?_ ?_⟩)
  · exact_mod_cast Nat.lcm_pos firstPositive secondPositive
  · rwa [← isLeast, isProduct]

namespace Constraints

/-- The quotient of two numbers, of the greater by the less one, is whole once it is rounded. -/
def RoundsWhole (left right : Binary64) : Prop :=
  (if Binary64.lt left right then right.div left else left.div right).isWhole = true

/-- Two numbers are naturals. -/
def AreNaturals (left right : Binary64) : Prop :=
  ∃ first second : Nat, left.rational? = some (first : ℚ) ∧ right.rational? = some (second : ℚ)

/-- The product from which a common multiple is computed, if it is, stays within 64 bits. -/
def ProductFits (left right : Binary64) : Prop :=
  ¬RoundsWhole left right → AreNaturals left right →
    left.toWord / Nat.gcd left.toWord right.toWord * right.toWord < 2 ^ 64

/-- Of two numbers one is a multiple of the other one. -/
def IsMultiple (left right : Binary64) : Prop :=
  (∃ value, left.rational? = some value ∧ right.Divides value) ∨
    ∃ value, right.rational? = some value ∧ left.Divides value

/--
The common multiple of two divisors is the greater one if the rounded quotient of both is whole. Otherwise
it is computed if both are naturals, and there is none if they are not.
-/
inductive FindsFor (left right : Binary64) : Option Binary64 → Prop
  | left (notLess : Binary64.lt left right = false) (rounds : RoundsWhole left right) :
    FindsFor left right (some left)
  | right (less : Binary64.lt left right = true) (rounds : RoundsWhole left right) :
    FindsFor left right (some right)
  | computed (broken : ¬RoundsWhole left right) (naturals : AreNaturals left right) :
    FindsFor left right (some (Binary64.ofRatio false
      (Binary64.mulWords (left.toWord / Nat.gcd left.toWord right.toWord) right.toWord) 1))
  | none (broken : ¬RoundsWhole left right) (fractional : ¬AreNaturals left right) :
    FindsFor left right none

/--
For two divisors there is a number that divides just what both of them do: one of them, or their least
common multiple, if that is a number and is not missed for a quotient that is only rounded to a whole one.
-/
inductive HaveExactMultiple (left right : Binary64) : Prop
  | quotient (isMultiple : IsMultiple left right)
  | computed (broken : ¬RoundsWhole left right) {first second : Nat}
    (isFirst : left.rational? = some (first : ℚ)) (isSecond : right.rational? = some (second : ℚ))
    (firstFits : first < 2 ^ 64) (secondFits : second < 2 ^ 64)
    (isExact : (Binary64.ofRatio false (first.lcm second) 1).rational? = some (first.lcm second : ℚ))

variable {left right multiple : Binary64} {value number first second : ℚ}

/-- A positive multiple of a positive number is not below it. -/
theorem le_of_divides (isSecond : right.rational? = some second) (firstPositive : 0 < first)
    (secondPositive : 0 < second) (divides : right.Divides first) :
    ∃ quotient : Nat, 0 < quotient ∧ first = quotient * second ∧ second ≤ first := by
  obtain ⟨factor, isFactor⟩ := (Binary64.divides_iff isSecond first).mp divides
  have positive : (0 : ℚ) < factor := by
    rw [isFactor] at firstPositive
    exact (mul_pos_iff_of_pos_right secondPositive).mp firstPositive
  obtain ⟨quotient, rfl⟩ := Int.eq_ofNat_of_zero_le (by exact_mod_cast positive.le : 0 ≤ factor)
  have atLeast : (1 : ℚ) ≤ quotient := by exact_mod_cast positive
  refine ⟨quotient, by exact_mod_cast positive, by exact_mod_cast isFactor, ?_⟩
  rw [isFactor]
  exact le_mul_of_one_le_left secondPositive.le (by exact_mod_cast atLeast)

/-- The quotient of a number by one that divides it is rounded to a whole one if it is finite. -/
theorem isWhole_div_of_divides (isFirst : left.rational? = some first)
    (isSecond : right.rational? = some second) (firstPositive : 0 < first) (secondPositive : 0 < second)
    (divides : right.Divides first) (notBeyond : first / second ≤ (2 ^ 53 - 1) * 2 ^ (971 : ℤ)) :
    (left.div right).isWhole = true := by
  obtain ⟨quotient, positive, rfl, _⟩ := le_of_divides isSecond firstPositive secondPositive divides
  obtain ⟨numerator, denominator, bottom, isRatio, ratio⟩ :=
    Binary64.exists_ofRatio_of_div isFirst isSecond firstPositive secondPositive
  rw [mul_div_cancel_right₀ _ secondPositive.ne'] at ratio notBeyond
  have exact : numerator = quotient * denominator := by
    have unit : (denominator : ℚ) ≠ 0 := by exact_mod_cast bottom.ne'
    exact_mod_cast (div_eq_iff unit).mp ratio
  rw [isRatio, exact]
  exact Binary64.isWhole_ofRatio bottom positive notBeyond

/-- Divisors that are naturals are those that a common multiple can be computed of. -/
theorem areNaturals_iff (leftDivisor : left.IsDivisor) (rightDivisor : right.IsDivisor) :
    (left.isWhole && right.isWhole && Binary64.le (Binary64.ofInt 1) left &&
      Binary64.le (Binary64.ofInt 1) right) = true ↔ AreNaturals left right := by
  have one : (Binary64.ofInt 1).rational? = some ((1 : Nat) : ℚ) :=
    Binary64.rational?_ofRatio (by decide) (by decide)
  -- A natural that is a divisor is at least one.
  have atLeast {divisor : Binary64} (isDivisor : divisor.IsDivisor) {natural : Nat}
      (isNatural : divisor.rational? = some (natural : ℚ)) :
      Binary64.le (Binary64.ofInt 1) divisor = true := by
    obtain ⟨value, isValue, positive⟩ := isDivisor
    cases isNatural.symm.trans isValue
    have naturalPositive : 1 ≤ natural := by exact_mod_cast positive
    rw [Binary64.le, Bool.or_eq_true, Binary64.lt_iff one isNatural,
      Binary64.beq_iff_of_rational one isNatural]
    exact_mod_cast naturalPositive.lt_or_eq
  simp only [Bool.and_eq_true]
  constructor
  · rintro ⟨⟨⟨leftWhole, rightWhole⟩, leftPositive⟩, rightPositive⟩
    obtain ⟨first, _, isFirst, _⟩ := Binary64.exists_of_isWhole leftWhole leftPositive
    obtain ⟨second, _, isSecond, _⟩ := Binary64.exists_of_isWhole rightWhole rightPositive
    exact ⟨first, second, isFirst, isSecond⟩
  · rintro ⟨first, second, isFirst, isSecond⟩
    exact ⟨⟨⟨Binary64.isWhole_of_natural isFirst, Binary64.isWhole_of_natural isSecond⟩,
      atLeast leftDivisor isFirst⟩, atLeast rightDivisor isSecond⟩

/-- The rounded quotient of divisors is whole if they are equal. -/
theorem roundsWhole_of_beq (leftDivisor : left.IsDivisor) (equal : (left == right) = true) :
    RoundsWhole left right := by
  obtain ⟨value, isValue, positive⟩ := leftDivisor
  have isOther := (Binary64.rational?_of_beq equal).1.symm.trans isValue
  have whole : (left.div right).isWhole = true := by
    refine isWhole_div_of_divides isValue isOther positive positive (Binary64.divides_self isOther) ?_
    rw [div_self positive.ne']
    exact one_le_mul_of_one_le_of_one_le (by norm_num) (one_le_zpow₀ one_le_two (by norm_num))
  have notLess : Binary64.lt left right = false := by
    rw [← Bool.not_eq_true, Binary64.lt_iff isValue isOther]
    exact lt_irrefl value
  rwa [RoundsWhole, notLess, if_neg Bool.false_ne_true]

/-- What is found for two divisors is what there is for them. -/
theorem findsFor_commonMultiple? (leftDivisor : left.IsDivisor) (rightDivisor : right.IsDivisor) :
    FindsFor left right (commonMultiple? left right) := by
  have naturals := areNaturals_iff leftDivisor rightDivisor
  have ⟨first, isFirst, firstPositive⟩ := leftDivisor
  have ⟨second, isSecond, secondPositive⟩ := rightDivisor
  have zero : (Binary64.zero false).rational? = some 0 := by
    simp [Binary64.zero, Binary64.rational?, Binary64.signed]
  have leftPositive : Binary64.lt (.zero false) left = true :=
    (Binary64.lt_iff zero isFirst).mpr firstPositive
  have rightPositive : Binary64.lt (.zero false) right = true :=
    (Binary64.lt_iff zero isSecond).mpr secondPositive
  by_cases rounds : RoundsWhole left right
  · -- Equal numbers have a whole quotient, too.
    cases order : Binary64.lt left right with
    | false =>
      have isLeft : commonMultiple? left right = some left := by
        simp only [RoundsWhole, order, Bool.false_eq_true, if_false] at rounds
        simp [commonMultiple?, order, rightPositive, rounds]
      exact isLeft ▸ .left order rounds
    | true =>
      have notEqual : (left == right) = false := by
        rw [← Bool.not_eq_true, Binary64.beq_iff_of_rational isFirst isSecond]
        exact ((Binary64.lt_iff isFirst isSecond).mp order).ne
      have isRight : commonMultiple? left right = some right := by
        simp only [RoundsWhole, order, if_true] at rounds
        simp [commonMultiple?, order, leftPositive, rounds, notEqual]
      exact isRight ▸ .right order rounds
  · have notEqual : (left == right) = false := by
      rw [← Bool.not_eq_true]
      exact mt (roundsWhole_of_beq leftDivisor) rounds
    have notQuotient : commonMultiple? left right =
        if left.isWhole && right.isWhole && Binary64.le (Binary64.ofInt 1) left &&
            Binary64.le (Binary64.ofInt 1) right then
          some (Binary64.ofRatio false
            (Binary64.mulWords (left.toWord / Nat.gcd left.toWord right.toWord) right.toWord) 1)
        else none := by
      cases order : Binary64.lt left right <;>
        simp only [RoundsWhole, order, Bool.false_eq_true, if_false, if_true, Bool.not_eq_true] at rounds <;>
        simp [commonMultiple?, order, rounds, notEqual]
    rw [notQuotient]
    split
    · rename_i computes
      exact .computed rounds (naturals.mp computes)
    · rename_i computesNot
      exact .none rounds (mt naturals.mpr computesNot)

/-- Of naturals of which one is a multiple of the other one, the rounded quotient is whole. -/
theorem roundsWhole_of_isMultiple (leftDivisor : left.IsDivisor) (rightDivisor : right.IsDivisor)
    (naturals : AreNaturals left right) (isMultiple : IsMultiple left right) :
    RoundsWhole left right := by
  obtain ⟨first, second, isFirst, isSecond⟩ := naturals
  obtain ⟨_, alsoFirst, firstPositive⟩ := leftDivisor
  obtain ⟨_, alsoSecond, secondPositive⟩ := rightDivisor
  cases isFirst.symm.trans alsoFirst
  cases isSecond.symm.trans alsoSecond
  -- A quotient by a natural is not greater than what is divided, which is finite.
  have notBeyond {natural other : Nat} {number : Binary64} (isValue : number.rational? = some (natural : ℚ))
      (positive : (0 : ℚ) < other) : (natural : ℚ) / other ≤ (2 ^ 53 - 1) * 2 ^ (971 : ℤ) := by
    have atLeast : (1 : ℚ) ≤ other := by exact_mod_cast positive
    exact (div_le_self (Nat.cast_nonneg _) atLeast).trans (Binary64.le_of_rational isValue)
  have byRight (divides : right.Divides first) : (left.div right).isWhole = true :=
    isWhole_div_of_divides isFirst isSecond firstPositive secondPositive divides
      (notBeyond isFirst secondPositive)
  have byLeft (divides : left.Divides second) : (right.div left).isWhole = true :=
    isWhole_div_of_divides isSecond isFirst secondPositive firstPositive divides
      (notBeyond isSecond firstPositive)
  -- The less one does not have the greater one as a divisor unless they are equal.
  have cases : right.Divides first ∨ left.Divides second := by
    rcases isMultiple with ⟨_, isValue, divides⟩ | ⟨_, isValue, divides⟩
    · cases isFirst.symm.trans isValue
      exact .inl divides
    · cases isSecond.symm.trans isValue
      exact .inr divides
  cases order : Binary64.lt left right with
  | false =>
    rw [RoundsWhole, order, if_neg Bool.false_ne_true]
    rcases cases with divides | divides
    · exact byRight divides
    · obtain ⟨_, _, _, notMore⟩ := le_of_divides isFirst secondPositive firstPositive divides
      rw [← Bool.not_eq_true, Binary64.lt_iff isFirst isSecond, not_lt] at order
      exact byRight (le_antisymm order notMore ▸ Binary64.divides_self isSecond)
  | true =>
    rw [RoundsWhole, order, if_pos rfl]
    rcases cases with divides | divides
    · obtain ⟨_, _, _, notMore⟩ := le_of_divides isSecond firstPositive secondPositive divides
      rw [Binary64.lt_iff isFirst isSecond] at order
      exact absurd order notMore.not_gt
    · exact byLeft divides

/-- The greater one of two divisors of which one is a multiple of the other one divides what both do. -/
theorem divides_iff_of_isMultiple (leftDivisor : left.IsDivisor) (rightDivisor : right.IsDivisor)
    (notLess : Binary64.lt left right = false) :
    (∀ number, left.Divides number ↔ left.Divides number ∧ right.Divides number) ↔
      IsMultiple left right := by
  obtain ⟨first, isFirst, firstPositive⟩ := leftDivisor
  obtain ⟨second, isSecond, secondPositive⟩ := rightDivisor
  constructor
  · exact fun stands => .inl ⟨first, isFirst, ((stands first).mp (Binary64.divides_self isFirst)).2⟩
  · intro isMultiple number
    have divides : right.Divides first := by
      rcases isMultiple with ⟨_, isValue, divides⟩ | ⟨_, isValue, divides⟩
      · cases isFirst.symm.trans isValue
        exact divides
      · -- The less one is a multiple of the greater one only if they are equal.
        cases isSecond.symm.trans isValue
        obtain ⟨_, _, _, notMore⟩ := le_of_divides isFirst secondPositive firstPositive divides
        rw [← Bool.not_eq_true, Binary64.lt_iff isFirst isSecond, not_lt] at notLess
        exact le_antisymm notLess notMore ▸ Binary64.divides_self isSecond
    exact ⟨fun byLeft => ⟨byLeft, divides.trans isFirst byLeft⟩, fun both => both.1⟩

/-- Being a multiple of each other does not depend on the order. -/
theorem IsMultiple.symm (isMultiple : IsMultiple left right) : IsMultiple right left :=
  Or.symm isMultiple

/-- What is computed of divisors divides just what both do exactly if it is their least common multiple. -/
theorem divides_iff_of_computed {product : Nat} (broken : ¬RoundsWhole left right)
    (naturals : AreNaturals left right) (leftDivisor : left.IsDivisor) (rightDivisor : right.IsDivisor)
    (isProduct : left.toWord / Nat.gcd left.toWord right.toWord * right.toWord = product)
    (fits : product < 2 ^ 64) :
    (∀ number, (Binary64.ofRatio false product 1).Divides number ↔
      left.Divides number ∧ right.Divides number) ↔ HaveExactMultiple left right := by
  have noQuotient := mt (roundsWhole_of_isMultiple leftDivisor rightDivisor naturals) broken
  have whole := (areNaturals_iff leftDivisor rightDivisor).mpr naturals
  simp only [Bool.and_eq_true] at whole
  obtain ⟨⟨⟨leftWhole, rightWhole⟩, leftPositive⟩, rightPositive⟩ := whole
  obtain ⟨first, firstPositive, isFirst, firstWord⟩ :=
    Binary64.exists_of_isWhole leftWhole leftPositive
  obtain ⟨second, secondPositive, isSecond, secondWord⟩ :=
    Binary64.exists_of_isWhole rightWhole rightPositive
  rw [firstWord, secondWord] at isProduct
  constructor
  · intro stands
    -- Zero is divided by both, so the product is rounded to a finite number, which divides itself.
    obtain ⟨value, isValue, _⟩ := (stands 0).mpr
      ⟨(Binary64.divides_iff isFirst 0).mpr ⟨0, by simp⟩, (Binary64.divides_iff isSecond 0).mpr ⟨0, by simp⟩⟩
    have ⟨byLeft, byRight⟩ := (stands value).mp (Binary64.divides_self isValue)
    have firstPart : 0 < min (2 ^ 64 - 1) first := lt_min (by decide) firstPositive
    have productPositive : 0 < product := isProduct ▸ Nat.mul_pos
      (Nat.div_pos (Nat.gcd_le_left _ firstPart) (Nat.gcd_pos_of_pos_left _ firstPart))
      (lt_min (by decide) secondPositive)
    have ⟨positive, less⟩ := Binary64.pos_and_lt_of_ofRatio productPositive isValue
    rcases eq_of_commonMultiple firstPositive secondPositive isProduct fits positive less
      ((Binary64.divides_iff isFirst _).mp byLeft) ((Binary64.divides_iff isSecond _).mp byRight) with
      rfl | rfl | ⟨firstFits, secondFits, isLeast⟩
    · exact .quotient (.inl ⟨first, isFirst, byRight⟩)
    · exact .quotient (.inr ⟨second, isSecond, byLeft⟩)
    · have same := isProduct.symm.trans (Binary64.wordProduct_eq_lcm firstFits secondFits)
      rw [same, isLeast] at isValue
      exact .computed broken isFirst isSecond firstFits secondFits isValue
  · rintro (isMultiple | ⟨_, sameFirst, sameSecond, firstFits, secondFits, isExact⟩)
    · exact absurd isMultiple noQuotient
    · cases Nat.cast_injective (Option.some.inj (isFirst.symm.trans sameFirst))
      cases Nat.cast_injective (Option.some.inj (isSecond.symm.trans sameSecond))
      have same := isProduct.symm.trans (Binary64.wordProduct_eq_lcm firstFits secondFits)
      intro number
      rw [same, Binary64.divides_iff isExact, Binary64.divides_iff isFirst, Binary64.divides_iff isSecond]
      -- The least common multiple is a multiple of both, and divides what both do.
      obtain ⟨byFirst, isByFirst⟩ := Nat.dvd_lcm_left first second
      obtain ⟨bySecond, isBySecond⟩ := Nat.dvd_lcm_right first second
      refine ⟨fun ⟨factor, isFactor⟩ => ⟨⟨factor * byFirst, ?_⟩, ⟨factor * bySecond, ?_⟩⟩,
        fun ⟨byLeft, byRight⟩ => Binary64.exists_mul_lcm byLeft byRight⟩
      · rw [isFactor, isByFirst]
        push_cast
        ring
      · rw [isFactor, isBySecond]
        push_cast
        ring

/-- What is found for two divisors divides just what both do exactly if there is such a number. -/
theorem divides_iff_haveExactMultiple (fits : ProductFits left right)
    (found : commonMultiple? left right = some multiple) (leftDivisor : left.IsDivisor)
    (rightDivisor : right.IsDivisor) :
    (∀ number, multiple.Divides number ↔ left.Divides number ∧ right.Divides number) ↔
      HaveExactMultiple left right := by
  have finds := found ▸ findsFor_commonMultiple? leftDivisor rightDivisor
  -- If the rounded quotient is whole, then no multiple is computed, and only that quotient may be exact.
  have only (rounds : RoundsWhole left right) : HaveExactMultiple left right ↔ IsMultiple left right := by
    refine ⟨?_, .quotient⟩
    rintro (isMultiple | broken)
    · exact isMultiple
    · exact absurd rounds broken
  cases finds with
  | left notLess rounds =>
    rw [only rounds]
    exact divides_iff_of_isMultiple leftDivisor rightDivisor notLess
  | right less rounds =>
    have ⟨first, isFirst, _⟩ := leftDivisor
    have ⟨second, isSecond, _⟩ := rightDivisor
    have notLess : Binary64.lt right left = false := by
      rw [Binary64.lt_iff isFirst isSecond] at less
      rw [← Bool.not_eq_true, Binary64.lt_iff isSecond isFirst]
      exact less.not_gt
    have symmetric := divides_iff_of_isMultiple rightDivisor leftDivisor notLess
    rw [only rounds, ← (⟨.symm, .symm⟩ : IsMultiple right left ↔ IsMultiple left right), ← symmetric]
    simp only [and_comm]
  | computed broken naturals =>
    rw [Binary64.mulWords_eq (fits broken naturals)]
    exact divides_iff_of_computed broken naturals leftDivisor rightDivisor rfl (fits broken naturals)

/-- A number whose rounded quotient by another one is whole is a multiple of that, if both are small. -/
theorem dvd_of_isWhole_div {first second : Nat} (isFirst : left.rational? = some (first : ℚ))
    (isSecond : right.rational? = some (second : ℚ)) (firstPositive : 0 < first)
    (secondPositive : 0 < second) (atLeast : second ≤ first) (small : first.lcm second ≤ 2 ^ 53)
    (isWhole : (left.div right).isWhole = true) : second ∣ first := by
  have first_le := Nat.le_of_dvd (Nat.lcm_pos firstPositive secondPositive) (Nat.dvd_lcm_left first second)
  rcases (first_le.trans small).lt_or_eq with below | full
  · exact Binary64.dvd_of_isWhole_div isFirst isSecond secondPositive atLeast below isWhole
  · -- The greatest of these numbers is its own least common multiple with any other.
    have same : first.lcm second = first := le_antisymm (small.trans full.ge) first_le
    exact same ▸ Nat.dvd_lcm_right first second

/-- A natural is divided by a number that is one of its divisors. -/
theorem divides_of_dvd {first second : Nat} (isSecond : right.rational? = some (second : ℚ))
    (divides : second ∣ first) : right.Divides first := by
  obtain ⟨quotient, rfl⟩ := divides
  exact (Binary64.divides_iff isSecond _).mpr ⟨quotient, by push_cast; ring⟩

/-- Naturals whose least common multiple is small have an exact one. -/
theorem haveExactMultiple_of_small {first second : Nat} (isFirst : left.rational? = some (first : ℚ))
    (isSecond : right.rational? = some (second : ℚ)) (firstPositive : 0 < first)
    (secondPositive : 0 < second) (small : first.lcm second ≤ 2 ^ 53) : HaveExactMultiple left right := by
  have common := Nat.lcm_pos firstPositive secondPositive
  have firstSmall := Nat.le_of_dvd common (Nat.dvd_lcm_left first second)
  have secondSmall := Nat.le_of_dvd common (Nat.dvd_lcm_right first second)
  by_cases rounds : RoundsWhole left right
  · -- The quotient of small numbers is rounded to a whole one only if the one divides the other.
    refine .quotient ?_
    cases order : Binary64.lt left right with
    | false =>
      rw [RoundsWhole, order, if_neg Bool.false_ne_true] at rounds
      rw [← Bool.not_eq_true, Binary64.lt_iff isFirst isSecond, not_lt] at order
      exact .inl ⟨first, isFirst, divides_of_dvd isSecond (dvd_of_isWhole_div isFirst isSecond
        firstPositive secondPositive (by exact_mod_cast order) small rounds)⟩
    | true =>
      rw [RoundsWhole, order, if_pos rfl] at rounds
      rw [Binary64.lt_iff isFirst isSecond] at order
      exact .inr ⟨second, isSecond, divides_of_dvd isFirst (dvd_of_isWhole_div isSecond isFirst
        secondPositive firstPositive (by exact_mod_cast order.le) (Nat.lcm_comm first second ▸ small)
          rounds)⟩
  · exact .computed rounds isFirst isSecond (by omega) (by omega)
      (Binary64.rational?_ofRatio common small)

/-- Divisors that may be absent are positive, and their product fits if both are there. -/
structure Divisible (left right : Option Binary64) : Prop where
  positive : ∀ divisor, divisor ∈ left ∨ divisor ∈ right → divisor.IsDivisor
  fits : ∀ divisor ∈ left, ∀ other ∈ right, ProductFits divisor other

/-- Two divisors are there, neither with a rounded quotient that is whole nor both naturals. -/
def LackMultiple (left right : Option Binary64) : Prop :=
  ∃ divisor ∈ left, ∃ other ∈ right, ¬RoundsWhole divisor other ∧ ¬AreNaturals divisor other

/-- A divisor divides just what two others both divide. -/
def DividesAsBoth (merged left right : Option Binary64) : Prop :=
  ∀ number, DividedBy merged number ↔ DividedBy left number ∧ DividedBy right number

/-- If two divisors are there, they are naturals with a small common multiple. -/
def HaveSmallMultiple (left right : Option Binary64) : Prop :=
  ∀ divisor ∈ left, ∀ other ∈ right, ∃ first second : Nat,
    divisor.rational? = some (first : ℚ) ∧ other.rational? = some (second : ℚ) ∧
      first.lcm second ≤ 2 ^ 53

/-- Divisors with a small common multiple do not lack one. -/
theorem HaveSmallMultiple.not_lackMultiple {left right : Option Binary64}
    (small : HaveSmallMultiple left right) : ¬LackMultiple left right := by
  rintro ⟨divisor, isDivisor, other, isOther, _, fractional⟩
  obtain ⟨first, second, isFirst, isSecond, _⟩ := small divisor isDivisor other isOther
  exact fractional ⟨first, second, isFirst, isSecond⟩

/-- Divisors with a small common multiple have an exact one. -/
theorem HaveSmallMultiple.haveExactMultiple {left right : Option Binary64}
    (small : HaveSmallMultiple left right) (divisible : Divisible left right) :
    ∀ divisor ∈ left, ∀ other ∈ right, HaveExactMultiple divisor other := by
  intro divisor isDivisor other isOther
  obtain ⟨first, second, isFirst, isSecond, small⟩ := small divisor isDivisor other isOther
  obtain ⟨_, sameFirst, firstPositive⟩ := divisible.positive divisor (.inl isDivisor)
  obtain ⟨_, sameSecond, secondPositive⟩ := divisible.positive other (.inr isOther)
  cases isFirst.symm.trans sameFirst
  cases isSecond.symm.trans sameSecond
  exact haveExactMultiple_of_small isFirst isSecond (by exact_mod_cast firstPositive)
    (by exact_mod_cast secondPositive) small

variable {left right : Constraints} (divisible : Divisible left.multipleOf right.multipleOf)
  (field : String)

include divisible

/-- It is noted that a divisor is dropped exactly if two of them lack a common multiple. -/
theorem dropped_iff :
    (∃ kept dropped, .multipleOfDropped field kept dropped ∈ (left.intersect field right).2) ↔
      LackMultiple left.multipleOf right.multipleOf := by
  obtain ⟨positive, _⟩ := divisible
  -- The notes on patterns say nothing of divisors.
  have noPattern (kept dropped : Binary64) :
      .multipleOfDropped field kept dropped ∉ (intersectPatterns field left.pattern right.pattern).2 := by
    unfold intersectPatterns
    split
    · split <;> simp
    · simp
  simp only [intersect, List.mem_append, noPattern, or_false]
  generalize left.multipleOf = divisor, right.multipleOf = other at positive ⊢
  match divisor, other with
  | none, _ => simp [intersectDivisors, LackMultiple]
  | some first, none => simp [intersectDivisors, LackMultiple]
  | some first, some second =>
    have finds := findsFor_commonMultiple? (positive first (.inl rfl)) (positive second (.inr rfl))
    simp only [intersectDivisors, LackMultiple, Option.mem_def, Option.some.injEq, exists_eq_left']
    generalize commonMultiple? first second = multiple at finds
    cases finds with
    | left _ rounds | right _ rounds => simp [rounds]
    | computed _ naturals => simp [naturals]
    | none broken fractional => simp [broken, fractional]

/--
If none is dropped, then a divisor is kept that divides just what both do, exactly if there is an exact
common multiple of both or only one of them is there.
-/
theorem dividesAsBoth_iff (common : ¬LackMultiple left.multipleOf right.multipleOf) :
    DividesAsBoth (left.intersect field right).1.multipleOf left.multipleOf right.multipleOf ↔
      ∀ divisor ∈ left.multipleOf, ∀ other ∈ right.multipleOf, HaveExactMultiple divisor other := by
  obtain ⟨positive, fits⟩ := divisible
  simp only [intersect]
  generalize left.multipleOf = divisor, right.multipleOf = other at positive fits common ⊢
  cases divisor with
  | none => simp [intersectDivisors, DividesAsBoth, DividedBy]
  | some first =>
    cases other with
    | none => simp [intersectDivisors, DividesAsBoth, DividedBy]
    | some second =>
      have isFirst := positive first (.inl rfl)
      have isSecond := positive second (.inr rfl)
      cases found : commonMultiple? first second with
      | none =>
        -- Nothing is found only for numbers without a common multiple.
        cases found ▸ findsFor_commonMultiple? isFirst isSecond with
        | none broken fractional => exact absurd ⟨first, rfl, second, rfl, broken, fractional⟩ common
      | some multiple =>
        have exact := divides_iff_haveExactMultiple (fits first rfl second rfl) found isFirst isSecond
        simpa [intersectDivisors, found, DividesAsBoth, DividedBy] using exact

end Constraints

end ApiTypes

import Mathlib.Tactic.Linarith
import ApiTypes.Proofs.Satisfaction.Value

/-!
A value within two sets of constraints is within their intersection. That needs the common multiples of
divisors to be exact, as they are up to `2 ^ 53`.
-/

namespace ApiTypes

namespace Binary64

/-- The nearest number to a natural of at most 53 bits is that natural. -/
theorem rational?_ofRatio {number : Nat} (positive : 0 < number) (small : number ≤ 2 ^ 53) :
    (ofRatio false number 1).rational? = some (number : ℚ) := by
  rcases Nat.lt_or_eq_of_le small with below | rfl
  swap
  · -- The one natural of 54 bits is a power of two.
    have rounded : ofRatio false (2 ^ 53) 1 = .finite false (2 ^ 52) 1 (by decide) := by decide
    rw [rounded]
    norm_num [rational?, signed]
  -- Shifted to all of its 53 bits, the natural is its own significand.
  have bits : number.log2 ≤ 52 := by
    have := (Nat.log2_lt positive.ne').mpr below
    omega
  obtain ⟨shift, isShift⟩ := Nat.le.dest bits
  have least : 2 ^ 52 ≤ number * 2 ^ shift := by
    rw [← isShift, pow_add]
    exact Nat.mul_le_mul_right _ (Nat.log2_self_le positive.ne')
  have most : number * 2 ^ shift < 2 ^ 53 := by
    have bound : (2 : Nat) ^ 53 = 2 ^ (number.log2 + 1) * 2 ^ shift := by
      rw [← pow_add]
      congr 1
      omega
    rw [bound]
    exact Nat.mul_lt_mul_of_pos_right Nat.lt_log2_self (Nat.two_pow_pos shift)
  have one : (1 : Nat).log2 = 0 := by decide
  have guess : (number.log2 : Int) - (1 : Nat).log2 - 52 = -shift := by
    rw [one]
    omega
  have counted : quotientOnGrid number 1 (-shift) = (number * 2 ^ shift, 1) := by
    simp [quotientOnGrid]
  have grid : gridOf number 1 = -shift := by
    simp only [gridOf, guess, counted, Nat.div_one]
    rw [if_neg (by omega)]
    omega
  have exact : divNearest (number * 2 ^ shift) 1 = number * 2 ^ shift := by
    simp [divNearest, Nat.mod_one]
  have canonical : Canonical (number * 2 ^ shift) (-shift) := ⟨most, by omega, by omega, .inl least⟩
  have rounded : ofRatio false number 1 = .finite false (number * 2 ^ shift) (-shift) canonical := by
    have notFull : number * 2 ^ shift ≠ 2 ^ 53 := most.ne
    simp only [ofRatio, positive.ne', grid, counted, exact, ofRounded, notFull, if_false]
    exact dif_pos canonical
  rw [rounded, rational?]
  simp only [signed, Bool.false_eq_true, if_false, Option.some.injEq]
  push_cast
  rw [mul_assoc, ← zpow_natCast, ← zpow_add₀ two_ne_zero, add_neg_cancel, zpow_zero, mul_one]

/-- The nearest number to a natural of at most 53 bits has its value. -/
theorem rational?_ofInt {natural : Nat} (positive : 0 < natural) (small : natural ≤ 2 ^ 53) :
    (ofInt natural).rational? = some (natural : ℚ) := by
  have same : ofInt natural = ofRatio false natural 1 := by
    rw [ofInt, decide_eq_false (by omega), Int.natAbs_natCast]
  rw [same, rational?_ofRatio positive small]

/-- Two numbers are in order if their exact values are. -/
theorem lt_iff {left right : Binary64} {low high : ℚ} (isLow : left.rational? = some low)
    (isHigh : right.rational? = some high) : lt left right = true ↔ low < high := by
  -- Both are counted in the finer of the two grids.
  match left, right with
  | .nan, _ | .infinite _, _ => cases isLow
  | .finite .., .nan | .finite .., .infinite _ => cases isHigh
  | .finite leftSign leftSignificand leftExponent _,
    .finite rightSign rightSignificand rightExponent _ =>
    cases isLow
    cases isHigh
    rw [← onGrid_mul leftSign leftSignificand (min_le_left _ rightExponent),
      ← onGrid_mul rightSign rightSignificand (min_le_right leftExponent _),
      mul_lt_mul_iff_of_pos_right (zpow_pos two_pos _), Int.cast_lt]
    simp [lt, compare?, compare_lt_iff_lt]

/-- Of a number that is not above another one, the exact value is not above the other one's. -/
theorem le_of_le {left right : Binary64} {low high : ℚ} (notMore : le left right = true)
    (isLow : left.rational? = some low) (isHigh : right.rational? = some high) : low ≤ high := by
  rcases Bool.or_eq_true_iff.mp notMore with less | same
  · exact ((lt_iff isLow isHigh).mp less).le
  · have equal := (rational?_of_beq same).1
    rw [isLow, isHigh] at equal
    exact (Option.some.inj equal).le

/-- A whole magnitude is a natural. -/
theorem exists_nat_of_dvd {significand : Nat} (exponent : Int)
    (whole : 2 ^ (-exponent).toNat ∣ significand) :
    ∃ natural : Nat, significand * 2 ^ exponent.toNat = 2 ^ (-exponent).toNat * natural ∧
      (significand : ℚ) * 2 ^ exponent = natural := by
  -- One of the two powers of two is one, whichever sign the exponent has.
  obtain ⟨natural, isNatural⟩ : 2 ^ (-exponent).toNat ∣ significand * 2 ^ exponent.toNat :=
    whole.mul_right _
  refine ⟨natural, isNatural, ?_⟩
  have split : (2 : ℚ) ^ exponent * 2 ^ (-exponent).toNat = 2 ^ exponent.toNat := by
    rw [← zpow_natCast, ← zpow_natCast, ← zpow_add₀ two_ne_zero]
    congr 1
    omega
  have scaled : (significand : ℚ) * 2 ^ exponent.toNat = 2 ^ (-exponent).toNat * natural := by
    exact_mod_cast isNatural
  rw [← split] at scaled
  have unit : (2 : ℚ) ^ (-exponent).toNat ≠ 0 := pow_ne_zero _ two_ne_zero
  exact mul_left_cancel₀ unit (by linarith)

/-- The exact value of a positive whole number is the natural that is found for it. -/
theorem exists_of_isWhole {number : Binary64} (isWhole : number.isWhole = true)
    (positive : le (ofInt 1) number = true) :
    ∃ natural : Nat, 0 < natural ∧ number.rational? = some (natural : ℚ) ∧
      number.toWord = min (2 ^ 64 - 1) natural := by
  match number with
  | .nan | .infinite _ => cases isWhole
  | .finite negative significand exponent canonical =>
    have one : (ofInt 1).rational? = some ((1 : Nat) : ℚ) := rational?_ofRatio (by decide) (by decide)
    have least : ((1 : Nat) : ℚ) ≤ signed negative significand * 2 ^ exponent :=
      le_of_le positive one rfl
    cases negative with
    | true =>
      -- A negative number is below one.
      have below : (signed true significand : ℚ) * 2 ^ exponent ≤ 0 := by
        refine mul_nonpos_of_nonpos_of_nonneg ?_ (zpow_pos two_pos _).le
        simp [signed]
      push_cast at least
      linarith
    | false =>
      obtain ⟨natural, isNatural, magnitude⟩ := exists_nat_of_dvd exponent
        (Nat.dvd_of_mod_eq_zero (by simpa [Binary64.isWhole] using isWhole) :
          2 ^ (-exponent).toNat ∣ significand)
      have value : (signed false significand : ℚ) * 2 ^ exponent = natural := by
        simpa [signed] using magnitude
      refine ⟨natural, ?_, by rw [rational?, value], ?_⟩
      · rw [value] at least
        exact_mod_cast least
      · rw [toWord, isNatural, Nat.mul_div_cancel_left _ (Nat.two_pow_pos _)]

/-- A finite number divides what is an integral multiple of its value. -/
theorem divides_iff {divisor : Binary64} {value : ℚ} (isValue : divisor.rational? = some value)
    (number : ℚ) : divisor.Divides number ↔ ∃ factor : ℤ, number = factor * value := by
  simp [Divides, isValue]

/-- An integral multiple of two naturals is one of their least common multiple. -/
theorem exists_mul_lcm {first second : Nat} {number : ℚ}
    (byFirst : ∃ factor : ℤ, number = factor * first)
    (bySecond : ∃ factor : ℤ, number = factor * second) :
    ∃ factor : ℤ, number = factor * (first.lcm second : Nat) := by
  -- The numerators are integers, where common multiples are those of the least one.
  obtain ⟨factor, isMultiple⟩ := byFirst
  obtain ⟨other, isOtherMultiple⟩ := bySecond
  have same : factor * (first : ℤ) = other * second := by
    exact_mod_cast isMultiple.symm.trans isOtherMultiple
  have firstDivides : first ∣ (factor * (first : ℤ)).natAbs :=
    Int.natCast_dvd.mp (Dvd.intro_left factor rfl)
  have secondDivides : second ∣ (factor * (first : ℤ)).natAbs :=
    Int.natCast_dvd.mp (Dvd.intro_left other same.symm)
  obtain ⟨quotient, isQuotient⟩ := Int.natCast_dvd.mpr (Nat.lcm_dvd firstDivides secondDivides)
  refine ⟨quotient, ?_⟩
  rw [isMultiple, mul_comm (quotient : ℚ)]
  exact_mod_cast isQuotient

/-- The product of words is exact if it is a word itself. -/
theorem mulWords_eq {first second : Nat} (fits : first * second < 2 ^ 64) :
    mulWords first second = first * second :=
  Nat.mod_eq_of_lt fits

/-- What is computed of two naturals as words is their least common multiple if both fit into words. -/
theorem wordProduct_eq_lcm {first second : Nat} (firstFits : first < 2 ^ 64)
    (secondFits : second < 2 ^ 64) :
    min (2 ^ 64 - 1) first / Nat.gcd (min (2 ^ 64 - 1) first) (min (2 ^ 64 - 1) second) *
      min (2 ^ 64 - 1) second = first.lcm second := by
  -- Naturals of 64 bits are not cut off when they are made words.
  rw [min_eq_right (by omega), min_eq_right (by omega),
    Nat.div_mul_right_comm (Nat.gcd_dvd_left first second)]
  rfl

/-- Of naturals with a small common multiple, it is computed as words without loss. -/
theorem mulWords_eq_lcm {first second : Nat} (firstPositive : 0 < first) (secondPositive : 0 < second)
    (small : first.lcm second ≤ 2 ^ 53) :
    mulWords (min (2 ^ 64 - 1) first / Nat.gcd (min (2 ^ 64 - 1) first) (min (2 ^ 64 - 1) second))
      (min (2 ^ 64 - 1) second) = first.lcm second := by
  have common := Nat.lcm_pos firstPositive secondPositive
  have firstSmall := Nat.le_of_dvd common (Nat.dvd_lcm_left first second)
  have secondSmall := Nat.le_of_dvd common (Nat.dvd_lcm_right first second)
  have exact := wordProduct_eq_lcm (by omega : first < 2 ^ 64) (by omega : second < 2 ^ 64)
  rw [mulWords_eq (by omega), exact]

/-- A number is no positive whole number unless that divides a limit. -/
def Fits (limit : Nat) (number : Binary64) : Prop :=
  ∀ natural : Nat, 0 < natural → number.rational? = some (natural : ℚ) → natural ∣ limit

end Binary64

namespace Constraints

/--
How a common multiple is found: the numbers are equal, or the quotient of the greater one by the less one
is whole, or the multiple is computed from two whole numbers.
-/
inductive FindsMultiple (left right : Binary64) : Binary64 → Prop
  | same (equal : (left == right) = true) : FindsMultiple left right left
  | left (notLess : Binary64.lt left right = false) (isWhole : (left.div right).isWhole = true) :
    FindsMultiple left right left
  | right (less : Binary64.lt left right = true) (isWhole : (right.div left).isWhole = true) :
    FindsMultiple left right right
  | computed (leftWhole : left.isWhole = true) (rightWhole : right.isWhole = true)
    (leftPositive : Binary64.le (Binary64.ofInt 1) left = true)
    (rightPositive : Binary64.le (Binary64.ofInt 1) right = true) :
    FindsMultiple left right (Binary64.ofRatio false
      (Binary64.mulWords (left.toWord / Nat.gcd left.toWord right.toWord) right.toWord) 1)

/-- A common multiple that is found is found in one of these ways. -/
theorem findsMultiple_of_commonMultiple? {left right multiple : Binary64}
    (found : commonMultiple? left right = some multiple) : FindsMultiple left right multiple := by
  -- The numbers are put in order first, and then there are three ways in either order.
  unfold commonMultiple? at found
  cases order : Binary64.lt left right <;>
    simp only [order, if_true, Bool.false_eq_true, if_false] at found
  all_goals
    split at found
    · rename_i equal
      exact Option.some.inj found ▸ .same equal
    split at found
    · rename_i quotient
      cases found
      first
        | exact .left order (Bool.and_eq_true_iff.mp quotient).2
        | exact .right order (Bool.and_eq_true_iff.mp quotient).2
    split at found
    · rename_i whole
      simp only [Bool.and_eq_true] at whole
      obtain ⟨⟨⟨leftWhole, rightWhole⟩, leftPositive⟩, rightPositive⟩ := whole
      exact Option.some.inj found ▸ .computed leftWhole rightWhole leftPositive rightPositive
    · cases found

variable {limit : Nat} (positive : 0 < limit) (small : limit ≤ 2 ^ 53) {left right : Binary64}

include positive small in
/-- A common multiple that is computed from numbers that fit is exact. -/
theorem exact_of_commonMultiple? {multiple : Binary64}
    (found : commonMultiple? left right = some multiple) (leftFits : left.Fits limit)
    (rightFits : right.Fits limit) :
    multiple = left ∨ multiple = right ∨ ∃ first second : Nat, first ∣ limit ∧ second ∣ limit ∧
      left.rational? = some (first : ℚ) ∧ right.rational? = some (second : ℚ) ∧
        multiple.rational? = some (first.lcm second : ℚ) := by
  cases findsMultiple_of_commonMultiple? found with
  | same | left => exact .inl rfl
  | right => exact .inr (.inl rfl)
  | computed leftWhole rightWhole leftPositive rightPositive =>
    obtain ⟨first, firstPositive, isFirst, firstWord⟩ :=
      Binary64.exists_of_isWhole leftWhole leftPositive
    obtain ⟨second, secondPositive, isSecond, secondWord⟩ :=
      Binary64.exists_of_isWhole rightWhole rightPositive
    have firstDivides := leftFits first firstPositive isFirst
    have secondDivides := rightFits second secondPositive isSecond
    -- The least common multiple divides the limit, and so it is neither cut off nor rounded.
    have common := (Nat.le_of_dvd positive (Nat.lcm_dvd firstDivides secondDivides)).trans small
    rw [firstWord, secondWord, Binary64.mulWords_eq_lcm firstPositive secondPositive common]
    exact .inr (.inr ⟨first, second, firstDivides, secondDivides, isFirst, isSecond,
      Binary64.rational?_ofRatio (Nat.lcm_pos firstPositive secondPositive) common⟩)

include positive small in
/-- A common multiple of numbers that fit does so as well. -/
theorem fits_of_commonMultiple? {multiple : Binary64}
    (found : commonMultiple? left right = some multiple) (leftFits : left.Fits limit)
    (rightFits : right.Fits limit) : multiple.Fits limit := by
  rcases exact_of_commonMultiple? positive small found leftFits rightFits with rfl | rfl |
    ⟨first, second, firstDivides, secondDivides, _, _, isCommon⟩
  · exact leftFits
  · exact rightFits
  · intro natural _ isNatural
    cases Nat.cast_injective (Option.some.inj (isCommon.symm.trans isNatural))
    exact Nat.lcm_dvd firstDivides secondDivides

include positive small in
/-- A common multiple of numbers that fit divides whatever both of them do. -/
theorem divides_of_commonMultiple? {multiple : Binary64}
    (found : commonMultiple? left right = some multiple) (leftFits : left.Fits limit)
    (rightFits : right.Fits limit) {number : ℚ} (byLeft : left.Divides number)
    (byRight : right.Divides number) : multiple.Divides number := by
  rcases exact_of_commonMultiple? positive small found leftFits rightFits with rfl | rfl |
    ⟨first, second, _, _, isFirst, isSecond, isCommon⟩
  · exact byLeft
  · exact byRight
  · rw [Binary64.divides_iff isFirst] at byLeft
    rw [Binary64.divides_iff isSecond] at byRight
    exact (Binary64.divides_iff isCommon _).mpr (Binary64.exists_mul_lcm byLeft byRight)

/-- The divisor of constraints is no positive whole number unless that divides a limit. -/
def Fits (limit : Nat) (constraints : Constraints) : Prop :=
  ∀ divisor ∈ constraints.multipleOf, divisor.Fits limit

/-- No constraints fit any limit. -/
theorem fits_empty (limit : Nat) : Fits limit {} := by simp [Fits]

variable {field : String} {left right : Constraints}

/-- The divisor of an intersection is one of the two, or the common multiple of both. -/
theorem multipleOf_intersect_cases {divisor : Binary64}
    (isDivisor : divisor ∈ (intersect field left right).1.multipleOf) :
    divisor ∈ left.multipleOf ∨ divisor ∈ right.multipleOf ∨
      ∃ first ∈ left.multipleOf, ∃ second ∈ right.multipleOf,
        commonMultiple? first second = some divisor := by
  -- Where only one divisor is given, it stays as it is.
  simp only [intersect] at isDivisor
  cases isLeft : left.multipleOf <;> cases isRight : right.multipleOf <;>
    simp only [isLeft, isRight, intersectDivisors] at isDivisor
  case some.some first second =>
    split at isDivisor
    · rename_i multiple found
      cases isDivisor
      exact .inr (.inr ⟨first, rfl, second, rfl, found⟩)
    · exact .inl isDivisor
  case some.none => exact .inl isDivisor
  case none.some => exact .inr (.inl isDivisor)
  case none.none => cases isDivisor

include positive small in
/-- The intersection of constraints that fit does so as well. -/
theorem fits_intersect (leftFits : left.Fits limit) (rightFits : right.Fits limit) :
    (intersect field left right).1.Fits limit := by
  intro divisor isDivisor
  rcases multipleOf_intersect_cases isDivisor with isLeft | isRight |
    ⟨first, isFirst, second, isSecond, found⟩
  · exact leftFits divisor isLeft
  · exact rightFits divisor isRight
  · exact fits_of_commonMultiple? positive small found (leftFits first isFirst)
      (rightFits second isSecond)

/-- The stricter of two bounds is one of them. -/
theorem mem_of_stricter {beyond : Binary64 → Binary64 → Bool} {left right : Option Bound}
    {bound : Bound} (isStricter : bound ∈ stricter beyond left right) :
    bound ∈ left ∨ bound ∈ right := by
  unfold stricter at isStricter
  split at isStricter
  · split at isStricter
    · exact .inr isStricter
    · exact .inl isStricter
  · exact .inl isStricter
  · exact .inr isStricter

/-- Of two counts, the greater or the less is one of them. -/
theorem mem_of_narrow {pick : Nat → Nat → Nat} (picks : ∀ first second,
    pick first second = first ∨ pick first second = second) {left right : Option Nat} {count : Nat}
    (isNarrow : count ∈ narrow pick left right) : count ∈ left ∨ count ∈ right := by
  unfold narrow at isNarrow
  split at isNarrow
  · cases isNarrow
    rename_i first second
    exact (picks first second).imp (fun same => congrArg some same.symm) fun same =>
      congrArg some same.symm
  · cases left with
    | some first => exact .inl isNarrow
    | none => exact .inr isNarrow

/-- The pattern of an intersection is one of the two. -/
theorem mem_of_intersectPatterns {left right : Option String} {pattern : String}
    (isPattern : pattern ∈ (intersectPatterns field left right).1) :
    pattern ∈ left ∨ pattern ∈ right := by
  unfold intersectPatterns at isPattern
  split at isPattern
  · exact .inl isPattern
  · cases left with
    | some first => exact .inl isPattern
    | none => exact .inr isPattern

end Constraints

variable {dialect : Dialect} {limit : Nat} {field : String} {left right : Constraints}

/-- A value within two sets of constraints that fit is within their intersection. -/
theorem Dialect.admits_intersect (positive : 0 < limit) (small : limit ≤ 2 ^ 53)
    (leftFits : left.Fits limit) (rightFits : right.Fits limit) {value : Json}
    (byLeft : dialect.Admits left value) (byRight : dialect.Admits right value) :
    dialect.Admits (Constraints.intersect field left right).1 value := by
  -- All but the divisors are chosen from one of the two sets; divisors may be combined.
  have greater (first second : Nat) : max first second = first ∨ max first second = second :=
    max_choice first second
  have less (first second : Nat) : min first second = first ∨ min first second = second :=
    min_choice first second
  cases value with
  | number number =>
    refine ⟨fun bound isBound => ?_, fun bound isBound => ?_, fun divisor isDivisor => ?_⟩
    · simp only [Constraints.intersect] at isBound
      exact (Constraints.mem_of_stricter isBound).elim (byLeft.1 bound) (byRight.1 bound)
    · simp only [Constraints.intersect] at isBound
      exact (Constraints.mem_of_stricter isBound).elim (byLeft.2.1 bound) (byRight.2.1 bound)
    · rcases Constraints.multipleOf_intersect_cases isDivisor with isLeft | isRight |
        ⟨first, isFirst, second, isSecond, found⟩
      · exact byLeft.2.2 divisor isLeft
      · exact byRight.2.2 divisor isRight
      · exact Constraints.divides_of_commonMultiple? positive small found (leftFits first isFirst)
          (rightFits second isSecond) (byLeft.2.2 first isFirst) (byRight.2.2 second isSecond)
  | text text =>
    refine ⟨fun least isLeast => ?_, fun most isMost => ?_, fun pattern isPattern => ?_⟩
    · simp only [Constraints.intersect] at isLeast
      exact (Constraints.mem_of_narrow greater isLeast).elim (byLeft.1 least) (byRight.1 least)
    · simp only [Constraints.intersect] at isMost
      exact (Constraints.mem_of_narrow less isMost).elim (byLeft.2.1 most) (byRight.2.1 most)
    · simp only [Constraints.intersect] at isPattern
      exact (Constraints.mem_of_intersectPatterns isPattern).elim (byLeft.2.2 pattern)
        (byRight.2.2 pattern)
  | list items =>
    refine ⟨fun least isLeast => ?_, fun most isMost => ?_⟩
    · simp only [Constraints.intersect] at isLeast
      exact (Constraints.mem_of_narrow greater isLeast).elim (byLeft.1 least) (byRight.1 least)
    · simp only [Constraints.intersect] at isMost
      exact (Constraints.mem_of_narrow less isMost).elim (byLeft.2 most) (byRight.2 most)
  | null | bool | object => trivial

end ApiTypes

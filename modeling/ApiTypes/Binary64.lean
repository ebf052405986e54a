/-! Double-precision numbers as exact values: their order, and rounding of quotients to them. -/

namespace ApiTypes

-- Powers are computed, whatever structure of numbers they are also part of.
attribute [local instance (high)] instPowNat

/--
The one form in which a finite magnitude `significand * 2 ^ exponent` is kept: a significand of at
most 53 bits, which has all of them unless the exponent is the least one.
-/
def Binary64.Canonical (significand : Nat) (exponent : Int) : Prop :=
  significand < 2 ^ (53 : Nat) ∧ -1074 ≤ exponent ∧ exponent ≤ 971 ∧
    (2 ^ (52 : Nat) ≤ significand ∨ exponent = -1074)

instance (significand : Nat) (exponent : Int) :
    Decidable (Binary64.Canonical significand exponent) :=
  inferInstanceAs (Decidable (_ ∧ _ ∧ _ ∧ _))

/-- A double-precision number. Zero has a sign; all values that are no number are one. -/
inductive Binary64 where
  /-- The value of an undefined operation. -/
  | nan
  /-- A value beyond the finite range. -/
  | infinite (negative : Bool)
  /-- The value `± significand * 2 ^ exponent`. -/
  | finite (negative : Bool) (significand : Nat) (exponent : Int)
      (canonical : Binary64.Canonical significand exponent)
deriving DecidableEq

namespace Binary64

/-- Zero with a sign. -/
def zero (negative : Bool) : Binary64 := .finite negative 0 (-1074) (by decide)

instance : Inhabited Binary64 := ⟨zero false⟩

/-- A signed integer from a sign and a magnitude. -/
def signed (negative : Bool) (magnitude : Nat) : Int :=
  if negative then -(magnitude : Int) else magnitude

/-- A finite value counted in units of `2 ^ grid`, for a grid no coarser than its exponent. -/
def onGrid (grid : Int) (negative : Bool) (significand : Nat) (exponent : Int) : Int :=
  signed negative (significand * 2 ^ (exponent - grid).toNat)

/-- The order of two numbers by value; an undefined value stands in no order to any other. -/
def compare? : Binary64 → Binary64 → Option Ordering
  | .nan, _ => none
  | _, .nan => none
  | .infinite left, .infinite right =>
    some (if left = right then .eq else if left then .lt else .gt)
  | .infinite negative, .finite .. => some (if negative then .lt else .gt)
  | .finite .., .infinite negative => some (if negative then .gt else .lt)
  | .finite leftSign leftSignificand leftExponent _,
    .finite rightSign rightSignificand rightExponent _ =>
    -- Both values are whole numbers of units on the finer of the two grids.
    let grid := min leftExponent rightExponent
    some (compare (onGrid grid leftSign leftSignificand leftExponent)
      (onGrid grid rightSign rightSignificand rightExponent))

/-- Equality of values: both zeros are equal, and an undefined value equals nothing. -/
instance : BEq Binary64 := ⟨fun left right => compare? left right == some .eq⟩

/-- Whether the first value is below the second. -/
def lt (left right : Binary64) : Bool := compare? left right == some .lt

/-- Whether the first value is below the second or equal to it. -/
def le (left right : Binary64) : Bool := lt left right || left == right

/-- The quotient of two naturals to the nearest natural, a tie going to the even one. -/
def divNearest (numerator denominator : Nat) : Nat :=
  let quotient := numerator / denominator
  let doubled := 2 * (numerator % denominator)
  if denominator < doubled ∨ (doubled = denominator ∧ quotient % 2 = 1) then quotient + 1
  else quotient

/-- The numerator and denominator of a quotient counted in units of `2 ^ grid`. -/
def quotientOnGrid (numerator denominator : Nat) (grid : Int) : Nat × Nat :=
  (numerator * 2 ^ (-grid).toNat, denominator * 2 ^ grid.toNat)

/-- The finest grid, not below the least exponent, on which a quotient takes at most 53 bits. -/
def gridOf (numerator denominator : Nat) : Int :=
  -- The bit lengths fix the quotient's own length up to one bit; the quotient settles that bit.
  let guess : Int := (numerator.log2 : Int) - denominator.log2 - 52
  let (top, bottom) := quotientOnGrid numerator denominator guess
  max (-1074) (if top / bottom < 2 ^ (52 : Nat) then guess - 1 else guess)

/-- The number with a rounded significand, whose rounding may have carried into a 54th bit. -/
def ofRounded (negative : Bool) (significand : Nat) (exponent : Int) : Binary64 :=
  let (significand, exponent) :=
    if significand = 2 ^ (53 : Nat) then (2 ^ (52 : Nat), exponent + 1) else (significand, exponent)
  -- A rounded value fails to be canonical only by exceeding the largest exponent.
  if canonical : Canonical significand exponent then
    .finite negative significand exponent canonical
  else .infinite negative

/-- The number nearest to `± numerator / denominator`, a tie going to the even significand. -/
def ofRatio (negative : Bool) (numerator denominator : Nat) : Binary64 :=
  if numerator = 0 then zero negative
  else
    let grid := gridOf numerator denominator
    let (top, bottom) := quotientOnGrid numerator denominator grid
    ofRounded negative (divNearest top bottom) grid

/-- The number nearest to an integer. -/
def ofInt (value : Int) : Binary64 := ofRatio (decide (value < 0)) value.natAbs 1

/--
The number nearest to `± digits * 10 ^ exponent`. Magnitudes of more than 310 places before the
point, or with more than 330 zeros after it, are settled without forming the power.
-/
def ofDecimal (negative : Bool) (digits : Nat) (exponent : Int) : Binary64 :=
  -- The leading digit stands at most this many places before the point.
  let places : Int := exponent + (digits.log2 + 1 : Nat)
  if digits = 0 then zero negative
  else if 310 < exponent then .infinite negative
  else if places < -330 then zero negative
  else ofRatio negative (digits * 10 ^ exponent.toNat) (10 ^ (-exponent).toNat)

end Binary64

end ApiTypes

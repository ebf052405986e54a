import ApiTypes.Binary64

/-! Products, quotients and whole parts of double-precision numbers. -/

namespace ApiTypes.Binary64

-- Powers are computed, whatever structure of numbers they are also part of.
attribute [local instance (high)] instPowNat

/-- The sign of a number; an undefined value counts as positive. -/
def isNegative : Binary64 → Bool
  | .nan => false
  | .infinite negative => negative
  | .finite negative .. => negative

/-- The number with the opposite sign. -/
def negate : Binary64 → Binary64
  | .nan => .nan
  | .infinite negative => .infinite !negative
  | .finite negative significand exponent canonical =>
    .finite (!negative) significand exponent canonical

/-- The number nearest to `± significand * 2 ^ exponent`. -/
def ofScaled (negative : Bool) (significand : Nat) (exponent : Int) : Binary64 :=
  ofRatio negative (significand * 2 ^ exponent.toNat) (2 ^ (-exponent).toNat)

/-- The product, rounded to nearest. -/
def mul : Binary64 → Binary64 → Binary64
  | .finite leftSign leftSignificand leftExponent _,
    .finite rightSign rightSignificand rightExponent _ =>
    ofScaled (leftSign != rightSign) (leftSignificand * rightSignificand)
      (leftExponent + rightExponent)
  | .nan, _ => .nan
  | _, .nan => .nan
  | .infinite leftSign, right =>
    if right == zero false then .nan else .infinite (leftSign != right.isNegative)
  | left, .infinite rightSign =>
    if left == zero false then .nan else .infinite (left.isNegative != rightSign)

/-- The quotient, rounded to nearest. -/
def div : Binary64 → Binary64 → Binary64
  | .finite leftSign leftSignificand leftExponent _,
    .finite rightSign rightSignificand rightExponent _ =>
    -- The exponents differ by a power of two that multiplies one side of the quotient.
    let difference := leftExponent - rightExponent
    if rightSignificand = 0 then
      if leftSignificand = 0 then .nan else .infinite (leftSign != rightSign)
    else
      ofRatio (leftSign != rightSign) (leftSignificand * 2 ^ difference.toNat)
        (rightSignificand * 2 ^ (-difference).toNat)
  | .nan, _ => .nan
  | _, .nan => .nan
  | .infinite _, .infinite _ => .nan
  | .infinite leftSign, right => .infinite (leftSign != right.isNegative)
  | left, .infinite rightSign => zero (left.isNegative != rightSign)

/-- Whether the number is finite and has no fractional part. -/
def isWhole : Binary64 → Bool
  | .finite _ significand exponent _ => significand % 2 ^ (-exponent).toNat == 0
  | _ => false

/-- The natural below a positive number, kept within 64 bits; a negative number gives zero. -/
def toWord : Binary64 → Nat
  | .finite false significand exponent _ =>
    min (2 ^ (64 : Nat) - 1) (significand * 2 ^ exponent.toNat / 2 ^ (-exponent).toNat)
  | .infinite false => 2 ^ (64 : Nat) - 1
  | _ => 0

/-- The product of two words, of which the lowest 64 bits are kept. -/
def mulWords (left right : Nat) : Nat := left * right % 2 ^ (64 : Nat)

end ApiTypes.Binary64

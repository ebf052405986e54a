import ApiTypes.Binary64

/-! The fewest decimal digits that read back to a double-precision number, and their layout. -/

namespace ApiTypes

-- Powers are computed, whatever structure of numbers they are also part of.
attribute [local instance (high)] instPowNat

/-- The decimal `digits * 10 ^ exponent`. -/
structure Decimal where
  digits : Nat
  exponent : Int
deriving DecidableEq, Inhabited

/-- Which of two equally near decimals is written. -/
inductive TieRule where
  /-- The one whose last digit is even. -/
  | toEven
  /-- The one of greater magnitude. -/
  | away
deriving DecidableEq

/--
The reals that round to a positive number, as quotients over one denominator. The ends belong to
them exactly when the significand is even.
-/
structure RoundingInterval where
  lower : Nat
  center : Nat
  upper : Nat
  denominator : Nat
  closed : Bool

namespace RoundingInterval

/-- The interval around `significand * 2 ^ exponent`. -/
def around (significand : Nat) (exponent : Int) : RoundingInterval :=
  -- In quarters of the last place: a power of two has its lower neighbour at half the distance.
  let below := if significand = 2 ^ (52 : Nat) ∧ -1074 < exponent then 1 else 2
  let unit := 2 ^ (exponent - 2).toNat
  { lower := (4 * significand - below) * unit
    center := 4 * significand * unit
    upper := (4 * significand + 2) * unit
    denominator := 2 ^ (2 - exponent).toNat
    closed := significand % 2 = 0 }

/-- The exponent of the leading decimal digit of the centre. -/
def leadingExponent (interval : RoundingInterval) : Int :=
  let places (value : Nat) : Nat := (Nat.toDigits 10 value).length
  if interval.denominator ≤ interval.center then
    (places (interval.center / interval.denominator) : Int) - 1
  else
    -- A quotient below one is inverted, which fixes the exponent up to an exact power of ten.
    let inverse := places (interval.denominator / interval.center)
    if interval.denominator ≤ interval.center * 10 ^ (inverse - 1) then 1 - (inverse : Int)
    else -(inverse : Int)

/-- A decimal as a numerator over the interval's denominator times `scale`, with that scale. -/
def scaled (interval : RoundingInterval) (decimal : Decimal) : Nat × Nat :=
  (decimal.digits * 10 ^ decimal.exponent.toNat * interval.denominator,
    10 ^ (-decimal.exponent).toNat)

/-- Whether a decimal lies in the interval. -/
def contains (interval : RoundingInterval) (decimal : Decimal) : Bool :=
  let (value, scale) := interval.scaled decimal
  if interval.closed then interval.lower * scale ≤ value && value ≤ interval.upper * scale
  else interval.lower * scale < value && value < interval.upper * scale

/-- The distance of a decimal from the centre, comparable between decimals of one exponent. -/
def distance (interval : RoundingInterval) (decimal : Decimal) : Nat :=
  let (value, scale) := interval.scaled decimal
  (value - interval.center * scale) + (interval.center * scale - value)

/-- The decimal with a given exponent that is nearest to the centre, if one is in the interval. -/
def nearest? (interval : RoundingInterval) (tie : TieRule) (exponent : Int) : Option Decimal :=
  -- If any decimal of this exponent is in the interval, one of the centre's two neighbours is.
  let below : Decimal :=
    ⟨interval.center * 10 ^ (-exponent).toNat / (interval.denominator * 10 ^ exponent.toNat),
      exponent⟩
  let above : Decimal := ⟨below.digits + 1, exponent⟩
  match interval.contains below, interval.contains above with
  | false, false => none
  | true, false => some below
  | false, true => some above
  | true, true =>
    match compare (interval.distance below) (interval.distance above) with
    | .lt => some below
    | .gt => some above
    | .eq =>
      match tie with
      | .toEven => some (if below.digits % 2 = 0 then below else above)
      | .away => some above

/-- The nearest of the shortest decimals in the interval; seventeen digits always suffice. -/
def shortest (interval : RoundingInterval) (tie : TieRule) : Decimal :=
  let leading := interval.leadingExponent
  let found := (List.range 17).findSome? fun (more : Nat) => interval.nearest? tie (leading - more)
  found.getD default

end RoundingInterval

/-- How the digits of a number are laid out. -/
structure NumberLayout where
  /-- Which of two equally near shortest decimals is taken. -/
  tie : TieRule
  /-- The exponents of the leading digit that are written without an exponent; all if absent. -/
  positional : Option (Int × Int)
  /-- Whether a whole number without an exponent ends in `.0`. -/
  pointZero : Bool
  /-- Whether a positive exponent is written with its sign. -/
  exponentSign : Bool
  /-- The text of an undefined value. -/
  nan : String
  /-- The text of a positive value beyond the finite range. -/
  infinity : String

namespace NumberLayout

/-- The given number of zeros. -/
def zeros (count : Nat) : List Char := List.replicate count '0'

/-- Digits without an exponent, the leading one standing for `10 ^ leading`. -/
def positionalText (layout : NumberLayout) (digits : List Char) (leading : Int) : List Char :=
  if leading < 0 then '0' :: '.' :: zeros (-leading - 1).toNat ++ digits
  else
    let whole := digits.take (leading.toNat + 1)
    let fraction := digits.drop (leading.toNat + 1)
    let padded := whole ++ zeros (leading.toNat + 1 - whole.length)
    if fraction.isEmpty then padded ++ (if layout.pointZero then ['.', '0'] else [])
    else padded ++ '.' :: fraction

/-- Digits with an exponent: one digit before the point, and no point without further digits. -/
def exponentText (layout : NumberLayout) (digits : List Char) (leading : Int) : List Char :=
  let mantissa := digits.take 1 ++ (if digits.length ≤ 1 then [] else '.' :: digits.drop 1)
  let sign := if leading < 0 then ['-'] else if layout.exponentSign then ['+'] else []
  mantissa ++ 'e' :: sign ++ Nat.toDigits 10 leading.natAbs

/-- A positive decimal, its digits written without trailing zeros. -/
def decimalText (layout : NumberLayout) (decimal : Decimal) : List Char :=
  let all := Nat.toDigits 10 decimal.digits
  let leading := decimal.exponent + all.length - 1
  let digits := (all.reverse.dropWhile (· == '0')).reverse
  let inRange := match layout.positional with
    | none => true
    | some (least, greatest) => decide (least ≤ leading ∧ leading ≤ greatest)
  if inRange then layout.positionalText digits leading else layout.exponentText digits leading

/-- The text of a number. -/
def render (layout : NumberLayout) (number : Binary64) : String :=
  let withSign (negative : Bool) (text : String) := if negative then "-" ++ text else text
  match number with
  | .nan => layout.nan
  | .infinite negative => withSign negative layout.infinity
  | .finite negative significand exponent _ =>
    withSign negative <| String.ofList <|
      if significand = 0 then layout.positionalText ['0'] 0
      else layout.decimalText ((RoundingInterval.around significand exponent).shortest layout.tie)

end NumberLayout

end ApiTypes

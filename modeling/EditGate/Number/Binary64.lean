/-!
# Binary floating point

Numbers of the 64-bit binary interchange format, held as their exact values. A
finite number is a mantissa below `2 ^ 53` times a power of two, so every step of
reading, writing and comparing it is arithmetic on natural numbers. Rounding goes
to the nearest number, and a tie to the even mantissa.
-/

namespace EditGate

/-- A 64-bit floating-point number. A finite one is `mantissa * 2 ^ exponent` with
its sign; zero has a sign too. -/
inductive Binary64 where
  | finite (negative : Bool) (mantissa : Nat) (exponent : Int)
  | infinite (negative : Bool)
  | notANumber
deriving DecidableEq, Repr, Inhabited

namespace Binary64

/-- The number of bits of a full mantissa. -/
def precision : Nat := 53

/-- The exponent of the smallest numbers. -/
def minExponent : Int := -1074

/-- The exponent of the largest finite numbers. -/
def maxExponent : Int := 971

/-- Zero with a sign. -/
def zero (negative : Bool) : Binary64 :=
  finite negative 0 minExponent

/-- The quotient rounded to the nearest natural number, a tie to the even one. -/
def roundDiv (numerator denominator : Nat) : Nat :=
  let quotient := numerator / denominator
  let twice := 2 * (numerator % denominator)
  if denominator < twice ∨ (twice = denominator ∧ quotient % 2 = 1) then quotient + 1
  else quotient

/-- A fraction times a power of two, as a fraction. -/
def scale (numerator denominator : Nat) (exponent : Int) : Nat × Nat :=
  (numerator * Nat.pow 2 exponent.toNat, denominator * Nat.pow 2 (-exponent).toNat)

/-- The largest power of two that does not exceed a positive fraction. -/
def floorLog2 (numerator denominator : Nat) : Int :=
  let guess : Int := (numerator.log2 : Int) - (denominator.log2 : Int)
  let (scaledNumerator, scaledDenominator) := scale numerator denominator (-guess)
  if scaledNumerator < scaledDenominator then guess - 1 else guess

/-- The number nearest to a fraction. What rounds beyond the largest finite
number becomes infinite. -/
def ofRatio (negative : Bool) (numerator denominator : Nat) : Binary64 :=
  if numerator = 0 then zero negative
  else
    let exponent := max (floorLog2 numerator denominator - 52) minExponent
    let (scaledNumerator, scaledDenominator) := scale numerator denominator (-exponent)
    let mantissa := roundDiv scaledNumerator scaledDenominator
    let (mantissa, exponent) :=
      if mantissa = Nat.pow 2 precision then (Nat.pow 2 (precision - 1), exponent + 1)
      else (mantissa, exponent)
    if maxExponent < exponent then infinite negative else finite negative mantissa exponent

/-- The number nearest to `digits * 10 ^ exponent`. Exponents far out of range are
settled without writing the power down. -/
def ofDecimal (negative : Bool) (digits : Nat) (exponent : Int) : Binary64 :=
  if digits = 0 then zero negative
  else
    let size : Int := exponent + ((Nat.toDigits 10 digits).length : Int)
    if 400 < size then infinite negative
    else if size < -400 then zero negative
    else ofRatio negative (digits * Nat.pow 10 exponent.toNat) (Nat.pow 10 (-exponent).toNat)

/-- The number nearest to an integer, if it is finite. -/
def ofInt? (number : Int) : Option Binary64 :=
  match ofRatio (decide (number < 0)) number.natAbs 1 with
  | finite negative mantissa exponent => some (finite negative mantissa exponent)
  | _ => none

/-- The magnitude of a finite number as a fraction. -/
def magnitude (mantissa : Nat) (exponent : Int) : Nat × Nat :=
  scale mantissa 1 exponent

/-- Zero of either sign. -/
def isZero : Binary64 → Bool
  | finite _ mantissa _ => mantissa == 0
  | _ => false

/-- The whole part of a finite number, cut off towards zero. -/
def truncate (negative : Bool) (mantissa : Nat) (exponent : Int) : Int :=
  let (numerator, denominator) := magnitude mantissa exponent
  let whole : Int := (numerator / denominator : Nat)
  if negative then -whole else whole

/-- A finite number as a fraction with its sign above. -/
def fraction (negative : Bool) (mantissa : Nat) (exponent : Int) : Int × Nat :=
  let (numerator, denominator) := magnitude mantissa exponent
  (if negative then -(numerator : Int) else (numerator : Int), denominator)

/-- The sum of two numbers, rounded. Opposite infinities have none; a sum of zero is
positive unless both numbers are negative. -/
def add : Binary64 → Binary64 → Binary64
  | notANumber, _ | _, notANumber => notANumber
  | infinite first, infinite second => if first = second then infinite first else notANumber
  | infinite negative, finite _ _ _ | finite _ _ _, infinite negative => infinite negative
  | finite first mantissa exponent, finite second mantissa' exponent' =>
      let (left, below) := fraction first mantissa exponent
      let (right, below') := fraction second mantissa' exponent'
      let sum := left * (below' : Int) + right * (below : Int)
      if sum = 0 then zero (first && second)
      else ofRatio (decide (sum < 0)) sum.natAbs (below * below')

/-- The product of two numbers, rounded. Zero times infinity has none. -/
def mul : Binary64 → Binary64 → Binary64
  | notANumber, _ | _, notANumber => notANumber
  | infinite first, infinite second => infinite (first != second)
  | infinite first, finite second mantissa _ | finite second mantissa _, infinite first =>
      if mantissa = 0 then notANumber else infinite (first != second)
  | finite first mantissa exponent, finite second mantissa' exponent' =>
      let (left, below) := magnitude mantissa exponent
      let (right, below') := magnitude mantissa' exponent'
      ofRatio (first != second) (left * right) (below * below')

end Binary64

end EditGate

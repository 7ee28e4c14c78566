import EditGate.Number.Binary64

/-!
# Shortest decimals

The decimal with the fewest digits that reads back as a given number, and of
those the one nearest to it. Written out, it is positional for moderate sizes
and scientific beyond them.
-/

namespace EditGate.Binary64

/-- The decimal `digits * 10 ^ exponent`. -/
structure Decimal where
  digits : Nat
  exponent : Int
deriving DecidableEq, Repr

/-- The number of decimal digits of a natural number. -/
def digitCount (number : Nat) : Nat :=
  (Nat.toDigits 10 number).length

/-- The largest power of ten that does not exceed a positive fraction. -/
def floorLog10 (numerator denominator : Nat) : Int :=
  if denominator ≤ numerator then
    ((digitCount (numerator / denominator) : Nat) : Int) - 1
  else
    let size := digitCount (denominator / numerator)
    if denominator ≤ numerator * Nat.pow 10 (size - 1) then -((size - 1 : Nat) : Int)
    else -(size : Int)

/-- The decimals of a given number of digits that stand next to the value and read
back as the number, the nearer one first. -/
def neighbours (mantissa : Nat) (exponent : Int) (places : Nat) : List Decimal :=
  let (numerator, denominator) := magnitude mantissa exponent
  let unit := floorLog10 numerator denominator - (places : Int) + 1
  let scaledNumerator := numerator * Nat.pow 10 (-unit).toNat
  let scaledDenominator := denominator * Nat.pow 10 unit.toNat
  let below := scaledNumerator / scaledDenominator
  let twice := 2 * (scaledNumerator % scaledDenominator)
  let nearBelow := twice < scaledDenominator ∨ (twice = scaledDenominator ∧ below % 2 = 0)
  let ordered := if nearBelow then [below, below + 1] else [below + 1, below]
  (ordered.map fun digits => (⟨digits, unit⟩ : Decimal)).filter fun decimal =>
    ofDecimal false decimal.digits decimal.exponent == finite false mantissa exponent

/-- The first decimal found among grids of `places`, `places + 1`, ... digits. -/
def shortestFrom (mantissa : Nat) (exponent : Int) : (grids places : Nat) → Decimal
  | 0, _ => ⟨mantissa, exponent⟩
  | grids + 1, places =>
      match neighbours mantissa exponent places with
      | decimal :: _ => decimal
      | [] => shortestFrom mantissa exponent grids (places + 1)

/-- The shortest decimal of a positive number; seventeen digits always suffice. -/
def shortest (mantissa : Nat) (exponent : Int) : Decimal :=
  shortestFrom mantissa exponent 17 1

/-- How numbers are written: positional if the point falls at most four places before
the first digit or sixteen places behind it, with at least one digit after the point. -/
def positional (point : Int) : Bool :=
  -4 < point && point ≤ 16

/-- Writes digits with the decimal point after the first `point` of them. -/
def place (digits : List Char) (point : Int) : List Char :=
  let size : Int := (digits.length : Nat)
  if positional point then
    if point ≤ 0 then '0' :: '.' :: List.replicate (-point).toNat '0' ++ digits
    else if size ≤ point then digits ++ List.replicate (point - size).toNat '0' ++ ['.', '0']
    else digits.take point.toNat ++ '.' :: digits.drop point.toNat
  else
    let power := point - 1
    let exponent := (toString power.natAbs).toList
    let padded := if exponent.length < 2 then '0' :: exponent else exponent
    let fraction := if digits.drop 1 = [] then [] else '.' :: digits.drop 1
    digits.take 1 ++ fraction ++ 'e' :: (if power < 0 then '-' else '+') :: padded

/-- The digits without zeros at their end, and how many zeros those were. -/
def stripZeros (digits : List Char) : List Char × Nat :=
  let kept := (digits.reverse.dropWhile (· == '0')).reverse
  (kept, digits.length - kept.length)

/-- The text of a number. -/
def render : Binary64 → String
  | finite negative mantissa exponent =>
      let body :=
        if mantissa = 0 then ['0', '.', '0']
        else
          let decimal := shortest mantissa exponent
          let all := Nat.toDigits 10 decimal.digits
          let (digits, zeros) := stripZeros all
          place digits (decimal.exponent + (zeros : Int) + (digits.length : Int))
      String.ofList (if negative then '-' :: body else body)
  | infinite negative => if negative then "-inf" else "inf"
  | notANumber => "nan"

end EditGate.Binary64

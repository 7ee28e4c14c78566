import EditGate.Number.Binary64
import EditGate.Text.Blank
import EditGate.Text.Digit

/-!
# Numerals

Reading integers and floating-point numbers as people write them: white space
around the numeral, a sign, decimal digits of any script, and single underscores
between digits.
-/

namespace EditGate.Text

/-- White space that may stand around a numeral; the information separators of
ASCII do not. -/
def isNumeralBlank (char : Char) : Bool :=
  isBlank char && !(0x1c ≤ char.toNat && char.toNat ≤ 0x1f)

/-- The numeral without the white space around it. -/
def trimNumeral (chars : List Char) : List Char :=
  ((chars.dropWhile isNumeralBlank).reverse.dropWhile isNumeralBlank).reverse

/-- An optional sign, and what follows it. -/
def takeSign : List Char → Bool × List Char
  | '-' :: rest => (true, rest)
  | '+' :: rest => (false, rest)
  | chars => (false, chars)

/-- The digits that continue a run, each with at most one underscore before it. -/
def moreDigits : List Char → List Nat × List Char
  | [] => ([], [])
  | '_' :: char :: rest =>
      match digitValue? char with
      | some digit => ((digit :: (moreDigits rest).1), (moreDigits rest).2)
      | none => ([], '_' :: char :: rest)
  | char :: rest =>
      match digitValue? char with
      | some digit => ((digit :: (moreDigits rest).1), (moreDigits rest).2)
      | none => ([], char :: rest)

/-- A run of digits, which starts with a digit; the run may be empty. -/
def digitRun (chars : List Char) : List Nat × List Char :=
  match chars with
  | [] => ([], [])
  | char :: rest =>
      match digitValue? char with
      | some digit => ((digit :: (moreDigits rest).1), (moreDigits rest).2)
      | none => ([], chars)

/-- The number that a list of decimal digits writes. -/
def ofDigits (digits : List Nat) : Nat :=
  digits.foldl (fun number digit => number * 10 + digit) 0

/-- How many digits a whole number may be written with. -/
def maxDigits : Nat := 4300

/-- Whether a whole number can be written. -/
def isWritable (number : Int) : Bool :=
  number.natAbs < Nat.pow 10 maxDigits

/-- Reads an integer. -/
def readInt? (text : List Char) : Option Int :=
  let (negative, body) := takeSign (trimNumeral text)
  match digitRun body with
  | ([], _) => none
  | (digits, []) =>
      if maxDigits < digits.length then none
      else
        let number : Int := (ofDigits digits : Nat)
        some (if negative then -number else number)
  | _ => none

/-- The value of a digit in a base, where letters go on behind the decimal digits. -/
def digitIn? (base : Nat) (char : Char) : Option Nat :=
  let value :=
    if char.isLower then some (char.toNat - 'a'.toNat + 10)
    else if char.isUpper then some (char.toNat - 'A'.toNat + 10)
    else digitValue? char
  value.filter (· < base)

/-- Reads an integer in a base. A zero and the letter of the base may stand before its digits,
which may be of any number. -/
def readIntIn? (base : Nat) (letter : Char) (text : List Char) : Option Int :=
  let (negative, body) := takeSign (trimNumeral text)
  let body := match body with
    | '0' :: char :: rest => if char.toLower = letter then rest else body
    | body => body
  match body.mapM (digitIn? base) with
  | some [] | none => none
  | some digits =>
      let number : Int := (digits.foldl (fun number digit => number * base + digit) 0 : Nat)
      some (if negative then -number else number)

/-- Reads the power of ten at the end of a numeral. -/
def readPower? : List Char → Option Int
  | [] => some 0
  | mark :: rest =>
      if mark = 'e' ∨ mark = 'E' then
        let (negative, body) := takeSign rest
        match digitRun body with
        | ([], _) => none
        | (digits, []) =>
            let power : Int := (ofDigits digits : Nat)
            some (if negative then -power else power)
        | _ => none
      else none

/-- The digits after a decimal point, if there is one. -/
def takeFraction : List Char → List Nat × List Char
  | '.' :: rest => digitRun rest
  | chars => ([], chars)

/-- Reads a floating-point number, the names of infinity and of no number included. -/
def readFloat? (text : List Char) : Option Binary64 :=
  let (negative, body) := takeSign (trimNumeral text)
  let name := String.ofList (body.map Char.toLower)
  if name = "inf" ∨ name = "infinity" then some (.infinite negative)
  else if name = "nan" then some .notANumber
  else
    let (whole, rest) := digitRun body
    let (fraction, rest) := takeFraction rest
    if whole.isEmpty && fraction.isEmpty then none
    else (readPower? rest).map fun power =>
      .ofDecimal negative (ofDigits (whole ++ fraction)) (power - (fraction.length : Nat))

end EditGate.Text

import EditGate.Value
import EditGate.Text.Numeral

/-!
# Reading JSON

Strict JSON with the usual extension of names for numbers that are not finite. A
numeral with a fraction or a power is a floating-point number, any other a whole
number. If a field of an object is written twice, its first place and its last
value count. Whole numbers are bounded in their digits and lists and objects in their
nesting, for which the reader gives the bound; the first trouble in the text is the one
reported. An escape may name half of a pair alone, which is no character: a string with one
is not judged.
-/

namespace EditGate.Value

/-- Why a text is no value. -/
inductive ReadError where
  /-- It is not JSON. -/
  | malformed
  /-- A whole number has too many digits. -/
  | tooManyDigits
  /-- Lists and objects are nested too deeply. -/
  | tooDeep
  /-- A string names half of a pair alone. -/
  | halfPair
deriving DecidableEq, Repr

/-- The white space of JSON. -/
def isJsonBlank (char : Char) : Bool :=
  char == ' ' || char == '\t' || char == '\n' || char == '\r'

/-- What follows the white space. -/
def skipJsonBlanks (chars : List Char) : List Char :=
  chars.dropWhile isJsonBlank

/-- The value of a digit in base sixteen. -/
def hexValue? (char : Char) : Option Nat :=
  if char.isDigit then some (char.toNat - '0'.toNat)
  else if 'a' ≤ char ∧ char ≤ 'f' then some (char.toNat - 'a'.toNat + 10)
  else if 'A' ≤ char ∧ char ≤ 'F' then some (char.toNat - 'A'.toNat + 10)
  else none

/-- A code unit of four digits, and what follows it. -/
def codeUnit? : List Char → Option (Nat × List Char)
  | first :: second :: third :: fourth :: rest => do
      let first ← hexValue? first
      let second ← hexValue? second
      let third ← hexValue? third
      let fourth ← hexValue? fourth
      some (((first * 16 + second) * 16 + third) * 16 + fourth, rest)
  | _ => none

/-- The character of a code unit and what follows it. A high unit takes the low one
after it; half of a pair that stands alone is no character. -/
def unitChar (unit : Nat) (rest : List Char) : Option Char × List Char :=
  if 0xd800 ≤ unit ∧ unit < 0xdc00 then
    match rest with
    | '\\' :: 'u' :: more =>
        match codeUnit? more with
        | some (low, after) =>
            if 0xdc00 ≤ low ∧ low < 0xe000 then
              (some (Char.ofNat (0x10000 + (unit - 0xd800) * 0x400 + (low - 0xdc00))), after)
            else (none, rest)
        | none => (none, rest)
    | _ => (none, rest)
  else if 0xdc00 ≤ unit ∧ unit < 0xe000 then (none, rest)
  else (some (Char.ofNat unit), rest)

/-- The character that a one-letter escape stands for. -/
def escaped? : Char → Option Char
  | '"' => some '"'
  | '\\' => some '\\'
  | '/' => some '/'
  | 'b' => some '\x08'
  | 'f' => some '\x0c'
  | 'n' => some '\n'
  | 'r' => some '\r'
  | 't' => some '\t'
  | _ => none

/-- The characters of a string after its opening quote, with nothing for half of a pair, and
what follows the closing one. Controls have to be escaped. Every step takes a character, so
`fuel` need not exceed the number of characters. -/
def stringBody? : (fuel : Nat) → List Char → Option (List (Option Char) × List Char)
  | 0, _ => none
  | _ + 1, [] => none
  | _ + 1, '"' :: rest => some ([], rest)
  | fuel + 1, '\\' :: 'u' :: rest => do
      let (unit, rest) ← codeUnit? rest
      let (char, rest) := unitChar unit rest
      let (chars, rest) ← stringBody? fuel rest
      some (char :: chars, rest)
  | fuel + 1, '\\' :: mark :: rest => do
      let char ← escaped? mark
      let (chars, rest) ← stringBody? fuel rest
      some (some char :: chars, rest)
  | fuel + 1, char :: rest =>
      if char.toNat < 0x20 ∨ char = '\\' then none
      else do
        let (chars, rest) ← stringBody? fuel rest
        some (some char :: chars, rest)

/-- All characters of a string, unless one of them is none. -/
def wholeChars? : List (Option Char) → Option (List Char)
  | [] => some []
  | none :: _ => none
  | some char :: rest => (wholeChars? rest).map (char :: ·)

/-- A string after its opening quote, and what follows it. -/
def readString (fuel : Nat) (rest : List Char) : Except ReadError (String × List Char) :=
  match stringBody? fuel rest with
  | none => .error .malformed
  | some (chars, rest) =>
      match wholeChars? chars with
      | some chars => .ok (String.ofList chars, rest)
      | none => .error .halfPair

/-- The digits in front, and what follows them. -/
def takeDigits (chars : List Char) : List Char × List Char :=
  (chars.takeWhile Char.isDigit, chars.dropWhile Char.isDigit)

/-- The number that ASCII digits write. -/
def ofDigitChars (digits : List Char) : Nat :=
  Text.ofDigits (digits.map fun digit => digit.toNat - '0'.toNat)

/-- The digits of a fraction, if a point and a digit stand in front. -/
def fraction? (chars : List Char) : Option (List Char × List Char) :=
  match chars with
  | '.' :: rest =>
      match takeDigits rest with
      | ([], _) => none
      | taken => some taken
  | _ => none

/-- The power of ten, if a mark and a digit stand in front. -/
def power? (chars : List Char) : Option (Int × List Char) :=
  match chars with
  | mark :: rest =>
      if mark = 'e' ∨ mark = 'E' then
        let (negative, rest) := Text.takeSign rest
        match takeDigits rest with
        | ([], _) => none
        | (digits, rest) =>
            let power : Int := (ofDigitChars digits : Nat)
            some (if negative then -power else power, rest)
      else none
  | [] => none

/-- The digits before the point, and what follows them. No zero stands before other digits. -/
def takeWhole (chars : List Char) : List Char × List Char :=
  match chars with
  | '0' :: rest => (['0'], rest)
  | _ => takeDigits chars

/-- A numeral after its sign, and what follows it. -/
def readNumeral (negative : Bool) (chars : List Char) : Except ReadError (Value × List Char) :=
  let (whole, rest) := takeWhole chars
  if whole.isEmpty then .error .malformed
  else
    let (fraction, afterFraction) := (fraction? rest).getD ([], rest)
    match power? afterFraction with
    | some (power, after) =>
        .ok (.float (.ofDecimal negative (ofDigitChars (whole ++ fraction))
          (power - (fraction.length : Nat))), after)
    | none =>
        if !fraction.isEmpty then
          .ok (.float (.ofDecimal negative (ofDigitChars (whole ++ fraction))
            (-(fraction.length : Nat) : Int)), afterFraction)
        else if Text.maxDigits < whole.length then .error .tooManyDigits
        else
          let number : Int := (ofDigitChars whole : Nat)
          .ok (.int (if negative then -number else number), rest)

/-- What follows a given beginning. -/
def after? : (beginning chars : List Char) → Option (List Char)
  | [], chars => some chars
  | _ :: _, [] => none
  | expected :: more, char :: rest => if expected = char then after? more rest else none

/-- A value whose name goes on as given, and what follows it. -/
def readNamed (value : Value) (more : String) (rest : List Char) :
    Except ReadError (Value × List Char) :=
  match after? more.toList rest with
  | some rest => .ok (value, rest)
  | none => .error .malformed

/-- A name or a numeral, and what follows it. -/
def readScalar (chars : List Char) : Except ReadError (Value × List Char) :=
  match chars with
  | 'n' :: rest => readNamed null "ull" rest
  | 't' :: rest => readNamed (bool true) "rue" rest
  | 'f' :: rest => readNamed (bool false) "alse" rest
  | 'N' :: rest => readNamed (float .notANumber) "aN" rest
  | 'I' :: rest => readNamed (float (.infinite false)) "nfinity" rest
  | '-' :: 'I' :: rest => readNamed (float (.infinite true)) "nfinity" rest
  | '-' :: rest => readNumeral true rest
  | chars => readNumeral false chars

mutual

/-- A value, and what follows it. Lists and objects may be nested `depth` levels further. -/
def readValue (depth : Nat) : (fuel : Nat) → List Char → Except ReadError (Value × List Char)
  | 0, _ => .error .malformed
  | fuel + 1, '"' :: rest => do
      let (text, rest) ← readString fuel rest
      .ok (str text, rest)
  | fuel + 1, '[' :: rest =>
      if depth = 0 then .error .tooDeep
      else match skipJsonBlanks rest with
        | ']' :: rest => .ok (list [], rest)
        | rest => readItems (depth - 1) fuel [] rest
  | fuel + 1, '\x7b' :: rest =>
      if depth = 0 then .error .tooDeep
      else match skipJsonBlanks rest with
        | '\x7d' :: rest => .ok (object [], rest)
        | rest => readFields (depth - 1) fuel [] rest
  | _ + 1, chars => readScalar chars

/-- The items of a list up to its end, after the items found so far (latest first). -/
def readItems (depth : Nat) :
    (fuel : Nat) → List Value → List Char → Except ReadError (Value × List Char)
  | 0, _, _ => .error .malformed
  | fuel + 1, found, chars => do
      let (item, rest) ← readValue depth fuel chars
      match skipJsonBlanks rest with
      | ',' :: rest => readItems depth fuel (item :: found) (skipJsonBlanks rest)
      | ']' :: rest => .ok (list (item :: found).reverse, rest)
      | _ => .error .malformed

/-- The fields of an object up to its end, after the fields found so far. -/
def readFields (depth : Nat) :
    (fuel : Nat) → List (String × Value) → List Char → Except ReadError (Value × List Char)
  | 0, _, _ => .error .malformed
  | fuel + 1, found, '"' :: rest => do
      let (name, rest) ← readString fuel rest
      match skipJsonBlanks rest with
      | ':' :: rest => do
          let (value, rest) ← readValue depth fuel (skipJsonBlanks rest)
          let found := Assoc.put name value found
          match skipJsonBlanks rest with
          | ',' :: rest => readFields depth fuel found (skipJsonBlanks rest)
          | '\x7d' :: rest => .ok (object found, rest)
          | _ => .error .malformed
      | _ => .error .malformed
  | _ + 1, _, _ => .error .malformed

end

/-- Reads a JSON text in which lists and objects may be nested so many levels deep. Two steps
for each character always suffice. -/
def ofJsonChars (nesting : Nat) (chars : List Char) : Except ReadError Value :=
  match readValue nesting (2 * chars.length + 2) (skipJsonBlanks chars) with
  | .ok (value, rest) =>
      if (skipJsonBlanks rest).isEmpty then .ok value else .error .malformed
  | .error error => .error error

/-- Reads a JSON text. -/
def ofJson (nesting : Nat) (text : String) : Except ReadError Value :=
  ofJsonChars nesting text.toList

end EditGate.Value

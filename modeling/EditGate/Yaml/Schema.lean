import EditGate.Text.Base64
import EditGate.Text.Numeral
import EditGate.Yaml.Timestamp

/-!
# What scalars of YAML mean

Every part of a document has a tag, which says what kind of thing it is. A plain scalar
without one is tagged by its form: numbers, truth values, nothing, days and times, and the
two keys with a meaning of their own; all else is text. The form is settled before the
meaning, so a scalar may have the form of a number and mean none.

The older rules know more spellings of truth values, numbers to the base sixty, and octal
numbers by their leading zero.
-/

namespace EditGate.Yaml

/-- What kind of thing a part of a document is. -/
inductive Tag where
  | null
  | bool
  | int
  | float
  | str
  | binary
  | timestamp
  | list
  | mapping
  | set
  | pairs
  | orderedMapping
  /-- The key whose value is merged into the mapping. -/
  | merge
  /-- The key that stands for the mapping itself. -/
  | itself
  /-- A kind that is not known. -/
  | unknown
deriving DecidableEq, Repr

/-- The tag with a given short name. -/
def Tag.ofName : String → Tag
  | "null" => null
  | "bool" => bool
  | "int" => int
  | "float" => float
  | "str" => str
  | "binary" => binary
  | "timestamp" => timestamp
  | "seq" => list
  | "map" => mapping
  | "set" => set
  | "pairs" => pairs
  | "omap" => orderedMapping
  | "merge" => merge
  | "value" => itself
  | _ => unknown

/-- What the names of the known tags start with. -/
def Tag.standard : String := "tag:yaml.org,2002:"

/-- The tag with a given full name. -/
def Tag.ofFullName (name : String) : Tag :=
  let start := standard.toList
  if start.isPrefixOf name.toList then ofName (String.ofList (name.toList.drop start.length))
  else unknown

/-- Whether a tag is one of collections. -/
def Tag.isCollection : Tag → Bool
  | list | mapping | set | pairs | orderedMapping => true
  | _ => false

/-! ### The form of plain scalars -/

/-- A text without a line feed at its end, which is not looked at where its form is settled. -/
def withoutBreak (chars : List Char) : List Char :=
  if chars.getLast? = some '\n' ∧ 1 < chars.length then chars.dropLast else chars

/-- Digits and the underscores between them. -/
def isDigitMark (char : Char) : Bool :=
  char.isDigit || char == '_'

/-- Whether something is written, in digits below a base and underscores. -/
def isInBase (base : Nat) (chars : List Char) : Bool :=
  !chars.isEmpty && chars.all fun char =>
    char == '_' || (Value.hexValue? char).any (· < base)

/-- Whether there are parts to the base sixty, each behind a colon, up to a given rest. -/
def isSixtieths (ends : List Char → Bool) : List Char → Bool
  | ':' :: first :: second :: rest =>
      first.isDigit &&
        if second.isDigit then first ≤ '5' && (ends rest || isSixtieths ends rest)
        else ends (second :: rest) || isSixtieths ends (second :: rest)
  | [':', first] => first.isDigit && ends []
  | _ => false

/-- Whether a plain scalar has the form of a whole number. -/
def isWhole (older : Bool) (chars : List Char) : Bool :=
  let body := (Text.takeSign chars).2
  match body with
  | '0' :: 'b' :: digits => isInBase 2 digits
  | '0' :: 'x' :: digits => isInBase 16 digits
  | '0' :: 'o' :: digits => !older && isInBase 8 digits
  | _ =>
      if older then
        let tens := body.head?.any (fun first => first.isDigit && first != '0')
        isInBase 8 body || (tens && body.all isDigitMark) ||
          (tens && isSixtieths List.isEmpty (body.dropWhile isDigitMark))
      else isInBase 10 body

/-- Whether a power of ten is written, perhaps one that needs its sign. -/
def isPower (signed : Bool) : List Char → Bool
  | mark :: rest =>
      let hasSign := rest.head?.any fun char => char == '+' || char == '-'
      let digits := (Text.takeSign rest).2
      (mark == 'e' || mark == 'E') && (hasSign || !signed) && !digits.isEmpty &&
        digits.all Char.isDigit
  | [] => false

/-- Whether a plain scalar has the form of a floating-point number: it has a point or a power
of ten. The power needs a sign if nothing stands before the point. -/
def isFloat (older : Bool) (chars : List Char) : Bool :=
  let body := (Text.takeSign chars).2
  let whole := body.takeWhile isDigitMark
  let rest := body.dropWhile isDigitMark
  let name := String.ofList body
  [".inf", ".Inf", ".INF"].contains name ||
  [".nan", ".NaN", ".NAN"].contains (String.ofList chars) ||
  match whole.head?, rest with
  | none, '.' :: rest =>
      let power := rest.dropWhile isDigitMark
      rest.head?.any isDigitMark && (power.isEmpty || isPower true power) &&
        (!older || body.length == chars.length)
  | some first, '.' :: rest =>
      let power := rest.dropWhile isDigitMark
      first.isDigit && (power.isEmpty || isPower false power)
  | some first, rest =>
      first.isDigit && (isPower false rest ||
        (older && isSixtieths (fun
          | '.' :: digits => digits.all isDigitMark
          | _ => false) rest))
  | none, _ => false

/-- The words for yes and for no. -/
def boolWords (older : Bool) : List String :=
  ["true", "True", "TRUE", "false", "False", "FALSE"] ++
    if older then
      ["y", "Y", "yes", "Yes", "YES", "n", "N", "no", "No", "NO", "on", "On", "ON", "off", "Off",
        "OFF"]
    else []

/-- The tag of a plain scalar by its form. A single mark of YAML itself has none. -/
def plainTag (older : Bool) (text : String) : Tag :=
  let chars := withoutBreak text.toList
  let text := String.ofList chars
  let numeric := chars.head?.any fun first => first.isDigit || first == '-' || first == '+'
  if ["", "~", "null", "Null", "NULL"].contains text then .null
  else if (boolWords older).contains text then .bool
  else if text = "<<" then .merge
  else if text = "=" then .itself
  else if (numeric || chars.head? == some '.') && isFloat older chars then .float
  else if numeric && isWhole older chars then .int
  else if Timestamp.isWritten chars then .timestamp
  else if ["!", "&", "*"].contains text then .unknown
  else .str

/-! ### The meaning of scalars -/

/-- A whole number in a base with its letter. -/
def inBase (base : Nat) (letter : Char) (chars : List Char) : Except Fault Int :=
  match Text.readIntIn? base letter chars with
  | some number => .ok number
  | none => .error .meaningless

/-- The number that parts to the base sixty make, the last one counting once. -/
def ofSixtieths (parts : List Int) : Int :=
  parts.foldl (fun number part => number * 60 + part) 0

/-- A whole number in decimal digits. -/
def decimal (chars : List Char) : Except Fault Int :=
  match Text.readInt? chars with
  | some number => .ok number
  | none => .error .meaningless

/-- The whole number that a scalar means. The older rules look at the first digit, which has to
be there. -/
def wholeMeaning (older : Bool) (chars : List Char) : Except Fault Int := do
  let chars := chars.filter (· != '_')
  if chars.isEmpty then .error .absent
  else
    let (negative, body) := Text.takeSign chars
    let number : Int ← match body with
      | '0' :: 'b' :: digits => inBase 2 'b' digits
      | '0' :: 'x' :: digits => inBase 16 'x' digits
      | '0' :: 'o' :: digits => inBase 8 'o' digits
      | body =>
          if older && body.isEmpty then .error .absent
          else if older && body.head? == some '0' then inBase 8 'o' body
          else if older && body.contains ':' then
            ofSixtieths <$> ((String.ofList body).splitOn ":").mapM (decimal ·.toList)
          else decimal body
    .ok (if negative then -number else number)

/-- A floating-point number in decimal digits. -/
def decimalFloat (chars : List Char) : Except Fault Binary64 :=
  match Text.readFloat? chars with
  | some number => .ok number
  | none => .error .meaningless

/-- The floating-point number with the other sign. -/
def negate : Binary64 → Binary64
  | .finite negative mantissa exponent => .finite (!negative) mantissa exponent
  | .infinite negative => .infinite (!negative)
  | .notANumber => .notANumber

/-- The sum of parts to the base sixty, from the last one on, which counts `weight`. -/
def sumOfSixtieths (sum : Binary64) (weight : Nat) : List Binary64 → Except Fault Binary64
  | [] => .ok sum
  | part :: rest =>
      match Binary64.ofInt? weight with
      | some factor => sumOfSixtieths (sum.add (part.mul factor)) (weight * 60) rest
      | none => .error .outOfRange

/-- The floating-point number that a scalar means. -/
def floatMeaning (older : Bool) (chars : List Char) : Except Fault Binary64 := do
  let chars := (chars.filter (· != '_')).map Char.toLower
  if chars.isEmpty then .error .absent
  else
    let (negative, body) := Text.takeSign chars
    let number ←
      if body = ".inf".toList then .ok (.infinite false)
      else if body = ".nan".toList then .ok .notANumber
      else if older && body.contains ':' then
        let parts ← ((String.ofList body).splitOn ":").mapM (decimalFloat ·.toList)
        sumOfSixtieths (.zero false) 1 parts.reverse
      else decimalFloat body
    .ok (if negative then negate number else number)

/-- The truth value that a scalar means. -/
def boolMeaning (text : String) : Except Fault Bool :=
  let word := String.ofList (text.toList.map Char.toLower)
  if ["y", "yes", "true", "on"].contains word then .ok true
  else if ["n", "no", "false", "off"].contains word then .ok false
  else .error .unknownWord

/-- The octets that a scalar means. They are written in ASCII alone. -/
def octetsMeaning (chars : List Char) : Except Fault Value :=
  match if chars.all (·.toNat < 0x80) then Text.Base64.decode? chars else none with
  | some octets =>
      let text := Text.quotedOctets octets
      .ok (.special "bytes" text text)
  | none => .error .malformed

/-- What a scalar with a tag means. -/
def scalarMeaning (older : Bool) (tag : Tag) (text : String) : Except Fault Value :=
  let chars := text.toList
  match tag with
  | .null => .ok .null
  | .bool => .bool <$> boolMeaning text
  | .int => .int <$> wholeMeaning older chars
  | .float => .float <$> floatMeaning older chars
  | .str => .ok (.str text)
  | .binary => octetsMeaning chars
  | .timestamp =>
      match Timestamp.ofChars? (withoutBreak chars) with
      | some stamp => stamp.meaning
      | none => .error .malformed
  | _ => .error .malformed

end EditGate.Yaml

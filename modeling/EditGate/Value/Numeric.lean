import EditGate.Number
import EditGate.Text.Numeral
import EditGate.Value

/-!
# Values as numbers

Stored data may hold a number in several shapes: as itself, as a truth value or as a
numeral. A whole number is cut off from a fraction towards zero.
-/

namespace EditGate.Value

/-- Why a value is no number. -/
inductive NumberError where
  /-- Values of this type are no numbers. -/
  | notNumeric
  /-- A text is no numeral, or what is not a number is to be a whole one. -/
  | unreadable
  /-- The number cannot be held. -/
  | outOfRange
deriving DecidableEq, Repr

/-- The whole number that a value means. -/
def toInt : Value → Except NumberError Int
  | bool flag => .ok (if flag then 1 else 0)
  | int number => .ok number
  | float (.finite negative mantissa exponent) => .ok (Binary64.truncate negative mantissa exponent)
  | float (.infinite _) => .error .outOfRange
  | float .notANumber => .error .unreadable
  | str text =>
      match Text.readInt? text.toList with
      | some number => .ok number
      | none => .error .unreadable
  | null | list _ | tuple _ | object _ | table _ | ordered _ | special _ _ _ => .error .notNumeric

/-- The floating-point number that a value means. -/
def toFloat : Value → Except NumberError Binary64
  | bool flag => .ok (.ofRatio false (if flag then 1 else 0) 1)
  | int number =>
      match Binary64.ofInt? number with
      | some number => .ok number
      | none => .error .outOfRange
  | float number => .ok number
  | str text =>
      match Text.readFloat? text.toList with
      | some number => .ok number
      | none => .error .unreadable
  | null | list _ | tuple _ | object _ | table _ | ordered _ | special _ _ _ => .error .notNumeric

/-- The number that a value is. Truth values count as one and zero. -/
def number? : Value → Option Number
  | bool flag => some (.whole (if flag then 1 else 0))
  | int number => some (.whole number)
  | float number => some (.float number)
  | _ => none

/-- A number as a value. -/
def ofNumber : Number → Value
  | .whole number => int number
  | .float number => float number

/-- The number that a value is, if it is of the whole kind. -/
def whole? (value : Value) : Option Int :=
  match value.number? with
  | some (.whole number) => some number
  | _ => none

end EditGate.Value

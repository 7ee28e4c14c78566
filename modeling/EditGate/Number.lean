import EditGate.Number.Binary64

/-!
# Numbers

Whole and floating-point numbers side by side. They are compared by their exact values,
without rounding the one kind to the other; a sum is whole only if both parts are.
-/

namespace EditGate

/-- A number of either kind. -/
inductive Number where
  | whole (number : Int)
  | float (number : Binary64)
deriving DecidableEq, Repr

namespace Number

/-- Where a number lies, in order: below all fractions, at a fraction, or above all. What is
not a number lies nowhere. -/
inductive Position where
  | bottom
  | point (numerator : Int) (denominator : Nat)
  | top

/-- Where a number lies. -/
def position? : Number → Option Position
  | whole number => some (.point number 1)
  | float (.finite negative mantissa exponent) =>
      let (numerator, denominator) := Binary64.fraction negative mantissa exponent
      some (.point numerator denominator)
  | float (.infinite negative) => some (if negative then .bottom else .top)
  | float .notANumber => none

/-- Whether one position is before another. -/
def Position.before : Position → Position → Bool
  | .point left below, .point right below' => left * (below' : Int) < right * (below : Int)
  | .bottom, .bottom | .top, _ | _, .bottom => false
  | .bottom, _ | _, .top => true

/-- Whether one number is less than another. -/
def less (left right : Number) : Bool :=
  match left.position?, right.position? with
  | some left, some right => left.before right
  | _, _ => false

/-- Whether two numbers have the same value. -/
def same (left right : Number) : Bool :=
  match left.position?, right.position? with
  | some left, some right => !left.before right && !right.before left
  | _, _ => false

/-- Whether one number is at most another. What is not a number is compared with none. -/
def atMost (left right : Number) : Bool :=
  left.less right || left.same right

/-- The number as a floating-point one, if it can be held. -/
def toFloat? : Number → Option Binary64
  | whole number => Binary64.ofInt? number
  | float number => some number

/-- The sum of two numbers, if it can be held. -/
def add? : Number → Number → Option Number
  | whole left, whole right => some (whole (left + right))
  | left, right => do some (float ((← left.toFloat?).add (← right.toFloat?)))

/-- The largest whole number that does not exceed a number, if there is one. -/
def floor? : Number → Option Int
  | whole number => some number
  | float (.finite negative mantissa exponent) =>
      let (numerator, denominator) := Binary64.fraction negative mantissa exponent
      some (numerator / (denominator : Int))
  | float _ => none

end Number

end EditGate

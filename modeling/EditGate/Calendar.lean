import EditGate.Value

/-!
# Calendar

Seconds since the start of 1970 as a date and a time of day, in the Gregorian calendar
continued to both sides. Fractions of a second are rounded to microseconds first and then
cut off.
-/

namespace EditGate.Calendar

/-- A date and a time of day. -/
structure Moment where
  year : Int
  month : Int
  day : Int
  hour : Int
  minute : Int
  second : Int
deriving DecidableEq, Repr

/-- The year, month and day of a number of days since the start of 1970. Years are
counted from March, in eras of four hundred years, so that the leap day is the last one. -/
def date (days : Int) : Int × Int × Int :=
  let shifted := days + 719468
  let era := shifted / 146097
  let dayOfEra := shifted % 146097
  let yearOfEra := (dayOfEra - dayOfEra / 1460 + dayOfEra / 36524 - dayOfEra / 146096) / 365
  let dayOfYear := dayOfEra - (365 * yearOfEra + yearOfEra / 4 - yearOfEra / 100)
  let monthFromMarch := (5 * dayOfYear + 2) / 153
  let day := dayOfYear - (153 * monthFromMarch + 2) / 5 + 1
  let month := if monthFromMarch < 10 then monthFromMarch + 3 else monthFromMarch - 9
  let year := yearOfEra + 400 * era + if month ≤ 2 then 1 else 0
  (year, month, day)

/-- The moment a number of seconds after the start of 1970. -/
def ofSeconds (seconds : Int) : Moment :=
  let (year, month, day) := date (seconds / 86400)
  let rest := seconds % 86400
  ⟨year, month, day, rest / 3600, rest % 3600 / 60, rest % 60⟩

/-- A number with at least two digits. -/
def twoDigits (number : Int) : String :=
  if number < 10 then "0" ++ toString number else toString number

/-- A moment as text. -/
def Moment.text (moment : Moment) : String :=
  toString moment.year ++ "-" ++ twoDigits moment.month ++ "-" ++ twoDigits moment.day ++ " " ++
    twoDigits moment.hour ++ ":" ++ twoDigits moment.minute ++ ":" ++ twoDigits moment.second

/-- Why a value is no moment. -/
inductive Error where
  /-- It is no number. -/
  | notNumeric
  /-- It is not a number. -/
  | notANumber
  /-- It does not fit into 64 bits. -/
  | tooLarge
  /-- Its year does not fit into 32 bits. -/
  | yearTooLarge
  /-- Its year, or that of the day before, is not between 1 and 9999. -/
  | yearOutOfRange
deriving DecidableEq, Repr

/-- The wording of an error. -/
def Error.message : Error → String
  | notNumeric => "A timestamp must be a number"
  | notANumber => "A timestamp must not be NaN"
  | tooLarge => "timestamp out of range for platform time_t"
  | yearTooLarge => "[Errno 75] Value too large for defined data type"
  | yearOutOfRange => "year is out of range"

/-- The whole seconds of a timestamp. -/
def seconds : Value → Except Error Int
  | .int number => .ok number
  | .bool flag => .ok (if flag then 1 else 0)
  | .float (.finite negative mantissa exponent) =>
      let (numerator, denominator) := Binary64.magnitude mantissa exponent
      let micros : Int := Binary64.roundDiv (numerator * 1000000) denominator
      .ok ((if negative then -micros else micros) / 1000000)
  | .float (.infinite _) => .error .tooLarge
  | .float .notANumber => .error .notANumber
  | _ => .error .notNumeric

/-- Whether a moment has a year that dates can name. -/
def isNameable (seconds : Int) : Bool :=
  let year := (ofSeconds seconds).year
  decide (1 ≤ year ∧ year ≤ 9999)

/-- The text of a timestamp. -/
def text (timestamp : Value) : Except Error String := do
  let whole ← seconds timestamp
  if whole < -9223372036854775808 ∨ 9223372036854775807 < whole then .error .tooLarge
  else if whole < -67768040609740800 ∨ 67768036191676799 < whole then .error .yearTooLarge
  else if isNameable whole && isNameable (whole - 86400) then .ok (ofSeconds whole).text
  else .error .yearOutOfRange

end EditGate.Calendar

import EditGate.Value.Numeric

/-!
# Summaries

What many verdicts come to. Verdicts are taken as data of any shape: one without a field
has nothing to add to its count. Verdicts that name an error are counted apart from those
that are invalid.
-/

namespace EditGate

/-- What many verdicts come to. -/
structure Summary where
  total : Nat
  valid : Nat
  fixable : Nat
  systemErrors : Nat
  /-- The numbers of errors and warnings, unless there is no verdict. -/
  counts : Option (Number × Number)

namespace Summary

/-- Why data make no summary. -/
inductive Error where
  /-- The verdicts are nothing that can be gone through. -/
  | notCountable
  /-- A verdict is no object. -/
  | notObject
  /-- A count is no number. -/
  | notNumber
  /-- A sum of counts cannot be held. -/
  | outOfRange

/-- The verdicts that are neither valid nor name an error. -/
def invalid (summary : Summary) : Int :=
  (summary.total : Int) - (summary.valid : Int) - (summary.systemErrors : Int)

/-- The sum of a count over verdicts. -/
def sumOf (name : String) (reports : List Value) : Except Error Number :=
  reports.foldlM (fun sum report =>
    match ((report.field? name).getD (.int 0)).number? with
    | none => .error .notNumber
    | some count =>
        match sum.add? count with
        | some sum => .ok sum
        | none => .error .outOfRange) (.whole 0)

/-- Whether a value has fields. -/
def isObject : Value → Bool
  | .object _ => true
  | _ => false

/-- What verdicts that are gone through come to; there has to be one. -/
def ofItems (reports : List Value) : Except Error Summary := do
  if !reports.all isObject then .error .notObject
  else
    let errors ← sumOf "error_count" reports
    let warnings ← sumOf "warning_count" reports
    .ok
      { total := reports.length
        valid := reports.countP fun report => (report.fieldD "success").isTruthy
        fixable := reports.countP fun report => (report.fieldD "fixable").isTruthy
        systemErrors := reports.countP fun report => (report.field? "error").isSome
        counts := some (errors, warnings) }

/-- Sums verdicts up. Whatever counts as a no holds none. -/
def ofReports (reports : Value) : Except Error Summary :=
  if !reports.isTruthy then .ok ⟨0, 0, 0, 0, none⟩
  else match reports.items? with
    | some items => ofItems items
    | none => .error .notCountable

/-- The share of valid verdicts with six decimals, or a plain zero if there are none. -/
def rateText (summary : Summary) : String :=
  if summary.total = 0 then "0"
  else match Binary64.ofRatio false summary.valid summary.total with
    | .finite _ mantissa exponent =>
        let (numerator, denominator) := Binary64.magnitude mantissa exponent
        let millionths := Binary64.roundDiv (numerator * 1000000) denominator
        let digits := Nat.toDigits 10 (millionths % 1000000)
        toString (millionths / 1000000) ++ "." ++
          String.ofList (List.replicate (6 - digits.length) '0' ++ digits)
    | _ => "0"

/-- A summary as data. -/
def toValue (summary : Summary) : Value :=
  .object ([("total_files", .int summary.total), ("valid", .int summary.valid),
    ("invalid", .int summary.invalid), ("fixable", .int summary.fixable),
    ("system_errors", .int summary.systemErrors), ("success_rate", .str summary.rateText)] ++
    match summary.counts with
    | some (errors, warnings) => [("errors", .ofNumber errors), ("warnings", .ofNumber warnings)]
    | none => [])

end Summary

end EditGate

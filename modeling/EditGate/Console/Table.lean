import EditGate.Calendar
import EditGate.Console

/-!
# Tables on the console

The recorded edits of a file, the verdicts on many files and what they come to. All of
them are made of data of any shape; some fields have to be there.
-/

namespace EditGate.Console

/-- Why data make no table. -/
inductive Error where
  /-- What should be an object is none. -/
  | notObject
  /-- A field is missing. -/
  | missing (field : String)
  /-- A timestamp is no moment. -/
  | timestamp (cause : Calendar.Error)

/-- A field that has to be there. -/
def required (value : Value) (name : String) : Except Error Value :=
  match value with
  | .object fields =>
      match Assoc.find? name fields with
      | some field => .ok field
      | none => .error (.missing name)
  | _ => .error .notObject

/-- A field that has to be there, as text. -/
def requiredText (value : Value) (name : String) : Except Error String :=
  (required value name).map Value.display

/-- The cell for the operation of a recorded edit. -/
def operationCell (entry : Value) : Except Error String :=
  let operation := entry.fieldD "operation"
  if operation.isTruthy then
    (requiredText entry "line_start").map fun line => operation.display ++ " @" ++ line
  else .ok "-"

/-- The row for a recorded edit. -/
def historyRow (step : Nat) (entry : Value) : Except Error (List String) := do
  let moment ← (Calendar.text (← required entry "timestamp")).mapError .timestamp
  let operation ← operationCell entry
  let additions ← requiredText entry "additions"
  let deletions ← requiredText entry "deletions"
  let modifications ← requiredText entry "modifications"
  let cost ← requiredText entry "size_cost"
  .ok [toString step, moment, operation,
    additions ++ "/" ++ deletions ++ "/" ++ modifications, cost]

/-- The rows for recorded edits, counted from `step`. -/
def historyRows (step : Nat) : List Value → Except Error (List (List String))
  | [] => .ok []
  | entry :: rest => do .ok ((← historyRow step entry) :: (← historyRows (step + 1) rest))

/-- The table of the recorded edits of a file. -/
def historyTable (entries : List Value) (name : String) : Except Error Item :=
  (historyRows 1 entries).map
    (.table s!"Edit History: {name}" ["Step", "When", "Operation", "+/-/~", "Cost"])

/-- A field as text, or a dash. -/
def countCell (report : Value) (name : String) : String :=
  ((report.field? name).map Value.display).getD "-"

/-- The row for the verdict on a file. -/
def verdictRow (report : Value) : List String :=
  let (color, icon) :=
    if (report.fieldD "success").isTruthy then ("green", "✅")
    else if (report.fieldD "fixable").isTruthy then ("yellow", "🔧")
    else ("red", "❌")
  let status := (report.fieldD "status").display
  [(report.fieldD "file_path").display, s!"[{color}]{status}[/{color}]",
    countCell report "error_count", countCell report "warning_count", icon]

/-- The table of the verdicts on many files. -/
def verdictTable (reports : List Value) : Item :=
  .table "LuaGuard Check Report" ["File Path", "Status", "Errors", "Warnings", "Result"]
    (reports.map verdictRow)

/-- A line across a panel. -/
def rule (width : Nat) : String :=
  String.ofList (List.replicate width '═')

/-- The panel that tells what verdicts come to. -/
def summaryPanel (summary : Value) : Except Error Item := do
  let total ← requiredText summary "total_files"
  let valid ← requiredText summary "valid"
  let invalid ← requiredText summary "invalid"
  let fixable ← requiredText summary "fixable"
  let errors ← requiredText summary "system_errors"
  .ok (.panel (.text ("\n".intercalate ["[bold white]Summary Report[/bold white]", rule 40,
    s!"Total Files:    {total}", s!"Valid:          [green]{valid}[/green]",
    s!"Invalid:        [red]{invalid}[/red]", s!"Auto-fixable:   [cyan]{fixable}[/cyan]",
    s!"System Errors:  [red]{errors}[/red]"])) none)

end EditGate.Console

import EditGate.Diff.Reverse
import EditGate.Edit
import EditGate.Value.Numeric

/-!
# Entries of the history

An entry remembers one edit that was carried out: when, how to take it back, what the
recipe costs, and the edit itself if there was one. Four stored characters cost one
unit, and the cost is rounded up.
-/

namespace EditGate.History

/-- One edit that was carried out. -/
structure Entry where
  /-- Seconds since the start of 1970. -/
  timestamp : Binary64
  /-- How to turn the text after the edit into the one before it. -/
  recipe : Diff.Recipe Value
  sizeCost : Int
  edit : Option Edit

namespace Entry

/-- The cost of a number of characters. -/
def cost (chars : Nat) : Nat :=
  (chars + 3) / 4

/-- The entry for a change of one text into another. -/
def ofTexts (now : Binary64) (before after : List Char) (edit : Option Edit) : Entry :=
  let recipe := Diff.Recipe.ofTexts before after
  { timestamp := now
    recipe := recipe.map Diff.Recipe.lineValue
    sizeCost := cost recipe.charCount
    edit := edit }

/-- The text before the edit, from the one after it. -/
def undo (entry : Entry) (text : List Char) : Except Diff.Recipe.Fault (List Char) :=
  entry.recipe.restore text

/-- The edit of an entry as data. -/
def editValue : Option Edit → Value
  | some edit => edit.toValue
  | none => .null

/-- An entry as data. -/
def toValue (entry : Entry) : Value :=
  .object [("timestamp", .float entry.timestamp), ("reverse_diff", entry.recipe.toValue),
    ("size_cost", .int entry.sizeCost), ("edit", editValue entry.edit)]

/-- An entry in short, as data. -/
def summary (entry : Entry) : Value :=
  let (operation, line) := match entry.edit with
    | some edit => (.str edit.operation.name, .int edit.first)
    | none => (Value.null, Value.null)
  .object [("timestamp", .float entry.timestamp), ("operation", operation), ("line_start", line),
    ("additions", .int entry.recipe.additions.length),
    ("deletions", .int entry.recipe.deletions.length),
    ("modifications", .int entry.recipe.modifications.length),
    ("size_cost", .int entry.sizeCost)]

/-- Why data make no entry. -/
inductive Error where
  /-- The data are no object. -/
  | notObject
  /-- A field is missing. -/
  | missing (field : String)
  /-- A field holds no number. -/
  | number (cause : Value.NumberError)
  /-- The recipe cannot be read. -/
  | recipe (cause : Diff.Recipe.Error)
  /-- The edit cannot be read. -/
  | edit (cause : Edit.Error)

/-- A field that has to be there. -/
def required (name : String) (value : Value) : Except Error Value :=
  match value.field? name with
  | some field => .ok field
  | none => .error (.missing name)

/-- Reads an entry from data. An edit that counts as a no is none. -/
def ofValue (value : Value) : Except Error Entry :=
  match value with
  | .object _ => do
      let timestamp ← (← required "timestamp" value).toFloat.mapError .number
      let recipe ← (Diff.Recipe.ofValue (← required "reverse_diff" value)).mapError .recipe
      let sizeCost ← ((value.field? "size_cost").getD (.int 0)).toInt.mapError .number
      let given := value.fieldD "edit"
      if given.isTruthy then
        let edit ← (Edit.ofValue given).mapError .edit
        .ok ⟨timestamp, recipe, sizeCost, some edit⟩
      else .ok ⟨timestamp, recipe, sizeCost, none⟩
  | _ => .error .notObject

end Entry

end EditGate.History

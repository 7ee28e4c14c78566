import EditGate.Analysis
import EditGate.Edit
import EditGate.Repair

/-!
# Reports

The verdict on a text: it is valid if there is no error. If the repair makes it
valid, the repaired text is offered; the report itself still speaks of the text as
it is.
-/

namespace EditGate

/-- The verdict on a text. -/
structure Report where
  errors : List Finding
  warnings : List Finding
  blocks : Lua.BlockAnalysis
  brackets : Lua.BracketAnalysis
  /-- The text that was judged. -/
  candidate : List Char
  /-- The repaired text, if the repair makes it valid. -/
  fixed : Option (List Char)

namespace Report

/-- A text is valid if there is no error. -/
def valid (report : Report) : Bool :=
  report.errors.isEmpty

/-- The repaired text, if the policy allows a repair and nothing is wrong after it. -/
def repaired (policy : Policy) (analysis : Analysis) (text : List Char) : Option (List Char) :=
  if policy.autoFix && !analysis.errors.isEmpty &&
      Repair.applies analysis.blocks analysis.brackets then
    let fixed := Repair.close analysis.blocks text
    if (Analysis.ofText policy.rules fixed).errors.isEmpty then some fixed else none
  else none

/-- Judges a text. -/
def ofText (policy : Policy) (text : List Char) : Report :=
  let analysis := Analysis.ofText policy.rules text
  { errors := Finding.sort analysis.errors
    warnings := Finding.sort analysis.warnings
    blocks := analysis.blocks
    brackets := analysis.brackets
    candidate := text
    fixed := repaired policy analysis text }

/-- Judges the text that an edit makes of another. -/
def ofEdit (policy : Policy) (text : List Char) (edit : Edit) : Except Edit.Error Report :=
  (edit.apply text).map (ofText policy)

/-- A text as data, or nothing. -/
def optionalText : Option (List Char) → Value
  | some text => .str (String.ofList text)
  | none => .null

/-- A report as data. -/
def toValue (report : Report) : Value :=
  .object [("valid", .bool report.valid), ("errors", .list (report.errors.map (·.toValue))),
    ("warnings", .list (report.warnings.map (·.toValue))),
    ("block_analysis", report.blocks.toValue), ("bracket_analysis", report.brackets.toValue),
    ("fixed_text", optionalText report.fixed)]

end Report

end EditGate

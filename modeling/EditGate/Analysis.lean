import EditGate.Lint
import EditGate.Lua.Balance
import EditGate.Lua.Block
import EditGate.Lua.Region

/-!
# Analysis of a text

One pass over a text: its regions, the balance of its blocks and brackets on the
code alone, and advice if asked for. A string that is cut off on a line where a
bracket is reported becomes an error, since the swallowed rest of the line is
what unbalanced it.
-/

namespace EditGate

/-- What a validation goes by. -/
structure Policy where
  /-- Whether missing `end` are offered to be added. -/
  autoFix : Bool
  /-- The rules of advice, if it is asked for. -/
  rules : Option Lint.Rules

/-- The policy that settings call for, if the rules of advice can be made. -/
def Settings.policy? (settings : Settings) : Option Policy :=
  if settings.lint then
    (Lint.Rules.ofSettings? settings).map fun rules => ⟨settings.autoFix, some rules⟩
  else some ⟨settings.autoFix, none⟩

/-- The outcome of one pass over a text. -/
structure Analysis where
  /-- The strings and long brackets left open. -/
  regions : List Finding
  blocks : Lua.BlockAnalysis
  brackets : Lua.BracketAnalysis
  advice : List Finding

namespace Analysis

/-- The lines that findings point at, with either of their places. -/
def touchedLines (findings : List Finding) : List Nat :=
  findings.map (·.position.line) ++ findings.filterMap fun finding =>
    finding.cause.related.map (·.line)

/-- Escalates a string that is cut off on one of the lines. -/
def escalate (lines : List Nat) (finding : Finding) : Finding :=
  if finding.kind = .unterminatedString ∧ lines.contains finding.position.line then
    { finding with escalated := true }
  else finding

/-- Analyses a text. -/
def ofText (rules : Option Lint.Rules) (text : List Char) : Analysis :=
  let scan := Lua.Scan.ofText text
  let brackets := Lua.BracketAnalysis.ofCode scan.code
  { regions := scan.findings.map (escalate (touchedLines brackets.findings))
    blocks := Lua.BlockAnalysis.ofCode scan.code
    brackets := brackets
    advice := match rules with
      | some rules => Lint.inspect rules scan.code
      | none => [] }

/-- All that was found, in the order of the analyses. -/
def findings (analysis : Analysis) : List Finding :=
  analysis.regions ++ analysis.blocks.findings ++ analysis.brackets.findings ++ analysis.advice

/-- The errors among the findings. -/
def errors (analysis : Analysis) : List Finding :=
  analysis.findings.filter (·.isError)

/-- The other findings. -/
def warnings (analysis : Analysis) : List Finding :=
  analysis.findings.filter (!·.isError)

end Analysis

end EditGate

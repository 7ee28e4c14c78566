import EditGate.Finding
import EditGate.Text.Lines

/-!
# Balance of brackets

The three families share one stack. A closing bracket takes the innermost open
one whatever its family, and is reported if the families differ.
-/

namespace EditGate.Lua

/-- An open bracket. -/
structure BracketAt where
  family : Family
  opened : Position
deriving DecidableEq, Repr

/-- The open brackets, the innermost first, and what was reported, the latest first. -/
structure BracketState where
  stack : List BracketAt := []
  findings : List Finding := []

/-- Reads one bracket. -/
def BracketState.step (state : BracketState) (bracket : Bracket) (position : Position) :
    BracketState :=
  match bracket, state.stack with
  | .opening family, stack => { state with stack := ⟨family, position⟩ :: stack }
  | .closing family, [] =>
      { state with findings := { cause := .extraBracket family, position } :: state.findings }
  | .closing family, top :: rest =>
      if top.family = family then { state with stack := rest }
      else
        { stack := rest
          findings := { cause := .wrongBracket family top.family top.opened, position } ::
            state.findings }

/-- The brackets of a line of code, from a column on. -/
def lineBrackets (line column : Nat) : List Char → List (Bracket × Position)
  | [] => []
  | char :: rest =>
      match Bracket.ofChar? char with
      | some bracket => (bracket, ⟨line, column⟩) :: lineBrackets line (column + 1) rest
      | none => lineBrackets line (column + 1) rest

/-- The brackets of lines of code with their positions, counting from `line`. -/
def brackets (line : Nat) : List Line → List (Bracket × Position)
  | [] => []
  | code :: rest => lineBrackets line 1 code ++ brackets (line + 1) rest

/-- Reads brackets one after the other. -/
def readBrackets (state : BracketState) (sequence : List (Bracket × Position)) : BracketState :=
  sequence.foldl (fun state found => state.step found.1 found.2) state

/-- The outcome of the analysis: the brackets left open, the outermost first, and what
is reported. -/
structure BracketAnalysis where
  unclosed : List BracketAt
  findings : List Finding

namespace BracketAnalysis

/-- The outcome of a state that was reached at the end of the text. -/
def ofState (state : BracketState) : BracketAnalysis where
  unclosed := state.stack.reverse
  findings := state.findings.reverse ++ state.stack.reverse.map fun bracket =>
    { cause := .openBracket bracket.family, position := bracket.opened }

/-- Analyses lines of code. -/
def ofCode (code : List Line) : BracketAnalysis :=
  ofState (readBrackets {} (brackets 1 code))

/-- The outcome as data. -/
def toValue (analysis : BracketAnalysis) : Value :=
  .object [("unclosed", .list (analysis.unclosed.map fun bracket =>
      .object [("char", .str bracket.family.opening.toString),
        ("line", .int bracket.opened.line), ("col", .int bracket.opened.column)])),
    ("error_count", .int analysis.findings.length)]

end BracketAnalysis

end EditGate.Lua

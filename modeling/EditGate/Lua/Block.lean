import EditGate.Finding
import EditGate.Lua.Word
import EditGate.Text.Lines

/-!
# Balance of blocks

Keywords are read in order against a stack of open blocks. An `end` closes the
innermost block of whatever kind; an `until` closes only a `repeat`. A `do` that
follows the header of a `for` or `while` belongs to that loop. All but `repeat`
expect an `end`.
-/

namespace EditGate.Lua

/-- An open block, and whether the `do` of its header is still to come. -/
structure OpenBlock where
  kind : BlockKind
  opened : Position
  awaitsDo : Bool
deriving DecidableEq, Repr

/-- The state of the analysis: the open blocks, the innermost first, the number of
`end` that are expected and found, the lines of closers that close nothing, and what was
reported, both the latest first. -/
structure BlockState where
  stack : List OpenBlock := []
  expected : Nat := 0
  found : Nat := 0
  extraLines : List Nat := []
  findings : List Finding := []

namespace BlockState

/-- Reports a cause at a position. -/
def report (state : BlockState) (cause : Cause) (position : Position) : BlockState :=
  { state with findings := { cause, position } :: state.findings }

/-- Notes the line of a closer that closes nothing. -/
def noteExtra (state : BlockState) (position : Position) : BlockState :=
  { state with extraLines := position.line :: state.extraLines }

/-- Opens a block, unless a `do` completes the header of a loop. -/
def openBlock (state : BlockState) (kind : BlockKind) (position : Position) : BlockState :=
  match kind, state.stack with
  | .doBlock, ⟨loop, opened, true⟩ :: rest =>
      { state with stack := ⟨loop, opened, false⟩ :: rest }
  | kind, stack =>
      { state with
        stack := ⟨kind, position, kind.hasHeader⟩ :: stack
        expected := if kind = .repeatLoop then state.expected else state.expected + 1 }

/-- Closes the innermost block. -/
def closeEnd (state : BlockState) (position : Position) : BlockState :=
  let state := { state with found := state.found + 1 }
  match state.stack with
  | _ :: rest => { state with stack := rest }
  | [] => (state.noteExtra position).report .extraEnd position

/-- Closes the innermost block if it is a `repeat`. -/
def closeUntil (state : BlockState) (position : Position) : BlockState :=
  match state.stack with
  | [] => (state.noteExtra position).report (.wrongUntil none) position
  | top :: rest =>
      if top.kind = .repeatLoop then { state with stack := rest }
      else
        (state.noteExtra position).report (.wrongUntil (some (top.kind, top.opened.line)))
          position

/-- Reads one keyword. -/
def step (state : BlockState) (keyword : Keyword) (position : Position) : BlockState :=
  match keyword with
  | .opener kind => state.openBlock kind position
  | .blockEnd => state.closeEnd position
  | .loopUntil => state.closeUntil position

end BlockState

/-- The block keywords of lines of code with their positions, counting from `line`. -/
def keywords (line : Nat) : List Line → List (Keyword × Position)
  | [] => []
  | code :: rest =>
      (lineKeywords code).map (fun found => (found.keyword, ⟨line, found.column⟩)) ++
        keywords (line + 1) rest

/-- Reads keywords one after the other. -/
def readKeywords (state : BlockState) (sequence : List (Keyword × Position)) : BlockState :=
  sequence.foldl (fun state found => state.step found.1 found.2) state

/-- The outcome of the analysis. -/
structure BlockAnalysis where
  /-- How many `end` the opened blocks call for. -/
  expected : Nat
  /-- How many `end` there are. -/
  found : Nat
  /-- The blocks left open, the outermost first. -/
  unclosed : List OpenBlock
  /-- The lines of closers that close nothing. -/
  extraLines : List Nat
  findings : List Finding

namespace BlockAnalysis

/-- The outcome of a state that was reached at the end of the text. -/
def ofState (state : BlockState) : BlockAnalysis where
  expected := state.expected
  found := state.found
  unclosed := state.stack.reverse
  extraLines := state.extraLines.reverse
  findings := state.findings.reverse ++ state.stack.reverse.map fun block =>
    { cause := .openBlock block.kind, position := block.opened }

/-- Analyses lines of code. -/
def ofCode (code : List Line) : BlockAnalysis :=
  ofState (readKeywords {} (keywords 1 code))

/-- How many more `end` are expected than found. -/
def missing (analysis : BlockAnalysis) : Int :=
  (analysis.expected : Int) - (analysis.found : Int)

/-- The outcome as data. -/
def toValue (analysis : BlockAnalysis) : Value :=
  .object [("expected_closers", .int analysis.expected), ("found_closers", .int analysis.found),
    ("unclosed", .list (analysis.unclosed.map fun block =>
      .object [("kind", .str block.kind.keyword), ("open_line", .int block.opened.line),
        ("open_column", .int block.opened.column)])),
    ("extra_closer_lines", .list (analysis.extraLines.map fun (line : Nat) => .int line))]

end BlockAnalysis

end EditGate.Lua

import EditGate.Lua.Block
import Mathlib

/-!
# Missing ends and open blocks

The number of missing `end` is a difference of two counts, and the open blocks are what
is left on a stack. The two are tied by a surplus that starts at zero and never grows: an
`end` lowers it if it closes nothing or closes a `repeat`, and no other keyword changes it.
So if as many `end` are missing as blocks are open, no `repeat` is among the open blocks
and none was closed by an `end`.

Reading further `end` takes that many blocks from the stack and reports those that find
none.
-/

namespace EditGate.Lua

namespace OpenBlock

/-- Whether a block calls for an `end`. -/
def needsEnd (block : OpenBlock) : Bool :=
  block.kind ≠ .repeatLoop

end OpenBlock

namespace BlockState

/-- How many more `end` are missing than open blocks call for. -/
def surplus (state : BlockState) : Int :=
  (state.expected : Int) - state.found - state.stack.countP OpenBlock.needsEnd

/-! ## The surplus never grows -/

/-- Opening a block keeps the surplus: a block that calls for an `end` is counted on both
sides, and a `do` that completes a header opens none. -/
theorem surplus_openBlock (state : BlockState) (kind : BlockKind) (position : Position) :
    (state.openBlock kind position).surplus = state.surplus := by
  obtain ⟨stack, expected, found, extraLines, findings⟩ := state
  fun_cases openBlock
  case case1 loop opened rest equal =>
      simp only at equal
      subst equal
      simp [surplus, OpenBlock.needsEnd, List.countP_cons]
  case case2 =>
      by_cases isRepeat : kind = .repeatLoop
      · simp [surplus, OpenBlock.needsEnd, isRepeat]
      · simp only [surplus, OpenBlock.needsEnd, isRepeat, List.countP_cons, ne_eq,
          not_false_eq_true, decide_true, if_true, if_false]
        push_cast
        ring

/-- An `end` is counted even if the block that it closes did not call for it. -/
theorem surplus_closeEnd (state : BlockState) (position : Position) :
    (state.closeEnd position).surplus =
      state.surplus - if state.stack.head?.any OpenBlock.needsEnd then 0 else 1 := by
  obtain ⟨stack, expected, found, extraLines, findings⟩ := state
  cases stack with
  | nil =>
      simp only [surplus, closeEnd, report, noteExtra, List.countP_nil, List.head?_nil,
        Option.any_none]
      push_cast
      ring
  | cons top rest =>
      by_cases needed : top.needsEnd = true
      · simp only [surplus, closeEnd, List.countP_cons, List.head?_cons, Option.any_some, needed,
          if_true]
        push_cast
        ring
      · simp only [surplus, closeEnd, List.countP_cons, List.head?_cons, Option.any_some, needed]
        push_cast
        ring

/-- An `until` closes only what calls for no `end`. -/
theorem surplus_closeUntil (state : BlockState) (position : Position) :
    (state.closeUntil position).surplus = state.surplus := by
  obtain ⟨stack, expected, found, extraLines, findings⟩ := state
  cases stack with
  | nil => rfl
  | cons top rest =>
      by_cases isRepeat : top.kind = .repeatLoop
      · simp [surplus, closeUntil, OpenBlock.needsEnd, isRepeat]
      · simp [surplus, closeUntil, report, noteExtra, isRepeat]

theorem surplus_step_le (state : BlockState) (keyword : Keyword) (position : Position) :
    (state.step keyword position).surplus ≤ state.surplus := by
  cases keyword with
  | opener kind => exact (surplus_openBlock state kind position).le
  | blockEnd =>
      rw [step, surplus_closeEnd]
      split <;> omega
  | loopUntil => exact (surplus_closeUntil state position).le

end BlockState

theorem readKeywords_append (state : BlockState) (first second : List (Keyword × Position)) :
    readKeywords state (first ++ second) = readKeywords (readKeywords state first) second :=
  List.foldl_append

theorem readKeywords_cons (state : BlockState) (found : Keyword × Position)
    (rest : List (Keyword × Position)) :
    readKeywords state (found :: rest) = readKeywords (state.step found.1 found.2) rest :=
  rfl

theorem surplus_readKeywords_le (state : BlockState) (sequence : List (Keyword × Position)) :
    (readKeywords state sequence).surplus ≤ state.surplus := by
  induction sequence generalizing state with
  | nil => exact le_refl _
  | cons found rest ih =>
      rw [readKeywords_cons]
      exact (ih _).trans (state.surplus_step_le found.1 found.2)

/-- If the surplus is not lowered over a sequence, every `end` in it closes a block that calls
for one. -/
theorem needsEnd_of_surplus_le {before after : List (Keyword × Position)} {position : Position}
    (kept : 0 ≤ (readKeywords {} (before ++ (.blockEnd, position) :: after)).surplus) :
    ∃ block rest, (readKeywords {} before).stack = block :: rest ∧ block.needsEnd := by
  have start : (readKeywords {} before).surplus ≤ 0 := surplus_readKeywords_le {} before
  have final := surplus_readKeywords_le ((readKeywords {} before).closeEnd position) after
  rw [readKeywords_append, readKeywords_cons] at kept
  have lowered := (readKeywords {} before).surplus_closeEnd position
  cases stack : (readKeywords {} before).stack with
  | nil =>
      simp only [stack, List.head?_nil, Option.any_none, Bool.false_eq_true, if_false] at lowered
      simp only [BlockState.step] at kept
      omega
  | cons block rest =>
      refine ⟨block, rest, rfl, ?_⟩
      by_contra unneeded
      simp only [stack, List.head?_cons, Option.any_some, unneeded, if_false] at lowered
      simp only [BlockState.step] at kept
      omega

/-! ## Further ends -/

/-- The report of an `end` that closes nothing. -/
def extraEndAt (position : Position) : Finding :=
  { cause := .extraEnd, position }

/-- Further `end` close that many blocks, and those that find none are reported. -/
theorem readKeywords_ends (state : BlockState) (positions : List Position) :
    readKeywords state (positions.map fun position => (.blockEnd, position)) =
      { stack := state.stack.drop positions.length
        expected := state.expected
        found := state.found + positions.length
        extraLines := ((positions.drop state.stack.length).map Position.line).reverse ++
          state.extraLines
        findings := ((positions.drop state.stack.length).map extraEndAt).reverse ++
          state.findings } := by
  induction positions generalizing state with
  | nil => simp [readKeywords]
  | cons position rest ih =>
      rw [List.map_cons, readKeywords_cons, ih]
      obtain ⟨stack, expected, found, extraLines, findings⟩ := state
      cases stack with
      | nil =>
          simp [BlockState.step, BlockState.closeEnd, BlockState.report, BlockState.noteExtra,
            extraEndAt, Nat.add_assoc, Nat.add_comm 1]
      | cons top below =>
          simp [BlockState.step, BlockState.closeEnd, Nat.add_assoc, Nat.add_comm 1]

/-! ## What is reported -/

/-- The kinds of findings about closers that close nothing. -/
def isCloserFinding (finding : Finding) : Prop :=
  finding.kind = .extraCloser ∨ finding.kind = .mismatchedUntil

theorem BlockState.step_findings {state : BlockState}
    (closers : ∀ finding ∈ state.findings, isCloserFinding finding)
    (keyword : Keyword) (position : Position) :
    ∀ finding ∈ (state.step keyword position).findings, isCloserFinding finding := by
  have reported : ∀ (next : BlockState) (cause : Cause), next.findings = state.findings →
      isCloserFinding { cause, position } →
      ∀ finding ∈ (next.report cause position).findings, isCloserFinding finding := by
    intro next cause same new finding found
    rcases List.mem_cons.1 found with rfl | old
    · exact new
    · exact closers finding (same ▸ old)
  cases keyword with
  | opener kind =>
      simp only [step]
      fun_cases openBlock <;> exact closers
  | blockEnd =>
      simp only [step, closeEnd]
      split
      · exact closers
      · exact reported _ _ rfl (Or.inl rfl)
  | loopUntil =>
      simp only [step, closeUntil]
      split
      · exact reported _ _ rfl (Or.inr rfl)
      · split
        · exact closers
        · exact reported _ _ rfl (Or.inr rfl)

/-- While keywords are read, only closers that close nothing are reported. -/
theorem readKeywords_findings {state : BlockState}
    (closers : ∀ finding ∈ state.findings, isCloserFinding finding)
    (sequence : List (Keyword × Position)) :
    ∀ finding ∈ (readKeywords state sequence).findings, isCloserFinding finding := by
  induction sequence generalizing state with
  | nil => exact closers
  | cons found rest ih => exact ih (BlockState.step_findings closers found.1 found.2)

/-- The lines noted for closers that close nothing are those of what was reported. -/
def BlockState.NotesLines (state : BlockState) : Prop :=
  state.extraLines = state.findings.map (·.position.line)

namespace BlockState.NotesLines

variable {state : BlockState}

theorem start : ({} : BlockState).NotesLines :=
  rfl

/-- A closer that closes nothing is noted and reported at one place. -/
theorem reportExtra (noted : state.NotesLines) (cause : Cause) (position : Position) :
    ((state.noteExtra position).report cause position).NotesLines :=
  congrArg (position.line :: ·) noted

theorem closeEnd (noted : state.NotesLines) (position : Position) :
    (state.closeEnd position).NotesLines := by
  fun_cases BlockState.closeEnd
  case case1 => exact noted
  case case2 => exact reportExtra noted .extraEnd position

theorem closeUntil (noted : state.NotesLines) (position : Position) :
    (state.closeUntil position).NotesLines := by
  fun_cases BlockState.closeUntil
  case case1 => exact noted.reportExtra _ position
  case case2 => exact noted
  case case3 => exact noted.reportExtra _ position

theorem step (noted : state.NotesLines) (keyword : Keyword) (position : Position) :
    (state.step keyword position).NotesLines := by
  cases keyword with
  | opener kind =>
      simp only [BlockState.step]
      fun_cases openBlock <;> exact noted
  | blockEnd => exact noted.closeEnd position
  | loopUntil => exact noted.closeUntil position

theorem readKeywords (noted : state.NotesLines) (sequence : List (Keyword × Position)) :
    (readKeywords state sequence).NotesLines := by
  induction sequence generalizing state with
  | nil => exact noted
  | cons found rest ih => exact ih (noted.step found.1 found.2)

end BlockState.NotesLines

/-- Nothing is reported in the end exactly if nothing was on the way and no block is open. -/
theorem findings_ofState_eq_nil_iff (state : BlockState) :
    (BlockAnalysis.ofState state).findings = [] ↔ state.findings = [] ∧ state.stack = [] := by
  simp [BlockAnalysis.ofState]

end EditGate.Lua

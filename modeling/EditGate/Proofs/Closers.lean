import EditGate.Proofs.BlockBalance
import EditGate.Proofs.Places
import Mathlib

/-!
# Accounts of closers

The balance of blocks keeps two counts and a stack, and they part ways: a `repeat` is put on the
stack but expects no `end`, and an `end` is counted even if it closes a `repeat` or nothing at all.
The account follows what each keyword takes from the stack. The `end` that take nothing and those
that take a `repeat` are just what the missing `end` fall short of the open blocks that call for
one. The closers that take nothing are just the ones that are reported, in the order of the text.
-/

namespace EditGate.Lua

/-! ## Turns -/

/-- A keyword that was read, and the block that it took from the stack. -/
structure Turn where
  keyword : Keyword
  position : Position
  taken? : Option OpenBlock

namespace Turn

/-- Whether an `end` took nothing. -/
def isExtraEnd (turn : Turn) : Bool :=
  turn.keyword = .blockEnd && turn.taken?.isNone

/-- Whether an `end` took a `repeat`. -/
def endsRepeat (turn : Turn) : Bool :=
  turn.keyword = .blockEnd && turn.taken?.any (·.kind = .repeatLoop)

/-- What a closer that took nothing is reported as, and where. -/
def stray? (turn : Turn) : Option (FindingKind × Position) :=
  match turn.keyword, turn.taken? with
  | .blockEnd, none => some (.extraCloser, turn.position)
  | .loopUntil, none => some (.mismatchedUntil, turn.position)
  | _, _ => none

theorem position_of_stray? {turn : Turn} {stray : FindingKind × Position}
    (strays : turn.stray? = some stray) : stray.2 = turn.position := by
  rw [stray?] at strays
  split at strays <;> cases strays <;> rfl

/-- The strays that are reported as extra are the `end` that took nothing. -/
theorem isExtraEnd_of_stray? (turn : Turn) :
    (turn.stray?.map fun stray => decide (stray.1 = .extraCloser)).getD false =
      turn.isExtraEnd := by
  obtain ⟨keyword, position, taken?⟩ := turn
  cases keyword <;> cases taken? <;> rfl

end Turn

namespace BlockState

/-- The block that is gone from the stack of the next state. -/
def taken? (state next : BlockState) : Option OpenBlock :=
  if next.stack.length < state.stack.length then state.stack.head? else none

/-- The turn in which a keyword is read. -/
def turn (state : BlockState) (keyword : Keyword) (position : Position) : Turn :=
  ⟨keyword, position, state.taken? (state.step keyword position)⟩

variable (state : BlockState) (position : Position)

/-- An `end` takes the innermost block of whatever kind. -/
theorem taken?_closeEnd : state.taken? (state.closeEnd position) = state.stack.head? := by
  obtain ⟨stack, expected, found, extraLines, findings⟩ := state
  cases stack with
  | nil => rfl
  | cons top rest => exact if_pos (Nat.lt_succ_self rest.length)

/-- An `until` takes the innermost block if it is a `repeat`. -/
theorem taken?_closeUntil :
    state.taken? (state.closeUntil position) =
      state.stack.head?.filter (·.kind = .repeatLoop) := by
  obtain ⟨stack, expected, found, extraLines, findings⟩ := state
  cases stack with
  | nil => rfl
  | cons top rest =>
      by_cases isRepeat : top.kind = .repeatLoop
      · simp [taken?, closeUntil, Option.filter, isRepeat]
      · simp [taken?, closeUntil, report, noteExtra, Option.filter, isRepeat]

/-- An `end` that takes nothing or a `repeat` lowers the surplus. -/
theorem surplus_step (keyword : Keyword) :
    (state.step keyword position).surplus =
      state.surplus - (if (state.turn keyword position).isExtraEnd then 1 else 0) -
        if (state.turn keyword position).endsRepeat then 1 else 0 := by
  cases keyword with
  | opener kind =>
      rw [step, surplus_openBlock]
      simp [Turn.isExtraEnd, Turn.endsRepeat, turn]
  | loopUntil =>
      rw [step, surplus_closeUntil]
      simp [Turn.isExtraEnd, Turn.endsRepeat, turn]
  | blockEnd =>
      rw [step, surplus_closeEnd]
      simp only [Turn.isExtraEnd, Turn.endsRepeat, turn, step, taken?_closeEnd]
      cases state.stack.head? with
      | none => simp
      | some top =>
          by_cases isRepeat : top.kind = .repeatLoop <;> simp [OpenBlock.needsEnd, isRepeat]

/-- A keyword is reported exactly if it is a closer that takes nothing. -/
theorem map_findings_step (keyword : Keyword) :
    (state.step keyword position).findings.map (fun finding => (finding.kind, finding.position)) =
      (state.turn keyword position).stray?.toList ++
        state.findings.map fun finding => (finding.kind, finding.position) := by
  cases keyword with
  | opener kind =>
      rw [step, (state.openBlock_cases kind position).1]
      rfl
  | blockEnd =>
      simp only [turn, step, taken?_closeEnd]
      rw [closeEnd]
      cases state.stack <;> rfl
  | loopUntil =>
      simp only [turn, step, taken?_closeUntil]
      rw [closeUntil]
      cases state.stack with
      | nil => rfl
      | cons top rest =>
          by_cases isRepeat : top.kind = .repeatLoop
          · simp [Turn.stray?, Option.filter, isRepeat]
          · simp [Turn.stray?, Option.filter, report, noteExtra, isRepeat, Finding.kind, Cause.kind]

/-- A closer adds nothing to the stack. -/
theorem stack_closeEnd_suffix : (state.closeEnd position).stack <:+ state.stack := by
  rw [closeEnd]
  split
  next top rest stack =>
    rw [stack]
    exact List.suffix_cons top rest
  · exact List.suffix_refl _

theorem stack_closeUntil_suffix : (state.closeUntil position).stack <:+ state.stack := by
  rw [closeUntil]
  split
  · exact List.suffix_refl _
  next top rest stack =>
    split
    · rw [stack]
      exact List.suffix_cons top rest
    · exact List.suffix_refl _

/-- A keyword puts a block on the stack at most, and then where it stands. -/
theorem opened_step_sublist (keyword : Keyword) :
    ((state.step keyword position).stack.reverse.map OpenBlock.opened).Sublist
      (state.stack.reverse.map OpenBlock.opened ++ [position]) := by
  have shorter {stack : List OpenBlock} (suffix : stack <:+ state.stack) :
      (stack.reverse.map OpenBlock.opened).Sublist
        (state.stack.reverse.map OpenBlock.opened ++ [position]) :=
    (suffix.sublist.reverse.map _).trans (List.sublist_append_left _ _)
  cases keyword with
  | opener kind =>
      rw [step]
      obtain ⟨_, opened | ⟨loop, opened, rest, stack, completed⟩⟩ :=
        state.openBlock_cases kind position
      · simp [opened]
      · simp [completed, stack]
  | blockEnd => exact shorter (state.stack_closeEnd_suffix position)
  | loopUntil => exact shorter (state.stack_closeUntil_suffix position)

end BlockState

/-- The turns in which keywords are read one after the other. -/
def turns (state : BlockState) : List (Keyword × Position) → List Turn
  | [] => []
  | found :: rest => state.turn found.1 found.2 :: turns (state.step found.1 found.2) rest

/-! ## Runs -/

theorem surplus_readKeywords (state : BlockState) (word : List (Keyword × Position)) :
    (readKeywords state word).surplus =
      state.surplus - (turns state word).countP Turn.isExtraEnd -
        (turns state word).countP Turn.endsRepeat := by
  induction word generalizing state with
  | nil => simp [readKeywords, turns]
  | cons found rest ih =>
      rw [readKeywords_cons, ih, state.surplus_step, turns, List.countP_cons, List.countP_cons]
      push_cast
      omega

/-- What is reported while keywords are read are the closers that take nothing, in their order. -/
theorem map_findings_readKeywords (state : BlockState) (word : List (Keyword × Position)) :
    (readKeywords state word).findings.reverse.map
        (fun finding => (finding.kind, finding.position)) =
      state.findings.reverse.map (fun finding => (finding.kind, finding.position)) ++
        (turns state word).filterMap Turn.stray? := by
  induction word generalizing state with
  | nil => simp [readKeywords, turns]
  | cons found rest ih =>
      rw [readKeywords_cons, ih, List.map_reverse, state.map_findings_step, turns,
        List.filterMap_cons]
      cases (state.turn found.1 found.2).stray? <;> simp

theorem map_position_turns (state : BlockState) (word : List (Keyword × Position)) :
    (turns state word).map Turn.position = word.map Prod.snd := by
  induction word generalizing state with
  | nil => rfl
  | cons found rest ih => exact congrArg (found.2 :: ·) (ih _)

/-- The closers that take nothing stand in the text in their order. -/
theorem strays_sublist (turns : List Turn) :
    ((turns.filterMap Turn.stray?).map Prod.snd).Sublist (turns.map Turn.position) := by
  induction turns with
  | nil => exact .slnil
  | cons turn rest ih =>
      rw [List.filterMap_cons, List.map_cons]
      cases strays : turn.stray? with
      | none => exact ih.cons _
      | some stray =>
          rw [← Turn.position_of_stray? strays]
          exact ih.cons_cons _

/-- The open blocks stand in the text, the innermost last. -/
theorem opened_sublist_readKeywords (state : BlockState) (word : List (Keyword × Position)) :
    ((readKeywords state word).stack.reverse.map OpenBlock.opened).Sublist
      (state.stack.reverse.map OpenBlock.opened ++ word.map Prod.snd) := by
  induction word generalizing state with
  | nil => simp [readKeywords]
  | cons found rest ih =>
      obtain ⟨keyword, position⟩ := found
      refine (ih (state.step keyword position)).trans ?_
      rw [List.map_cons, List.append_cons]
      exact (state.opened_step_sublist position keyword).append (.refl _)

/-! ## The keywords of a text -/

theorem pairwise_column_wordsFrom (before : List Char) (column : Nat) (chars : List Char) :
    (wordsFrom before column chars).Pairwise fun first second => first.column < second.column := by
  induction before, column, chars using wordsFrom.induct with
  | case1 before column => simp [wordsFrom]
  | case2 before column char rest isWord run ih =>
      rw [wordsFrom, if_pos isWord, List.pairwise_cons]
      refine ⟨?_, ih⟩
      intro word later
      have bounds := (stands_of_mem_wordsFrom later).bounds
      rw [List.length_cons] at bounds
      dsimp only
      omega
  | case3 before column char rest notFirst ih =>
      rw [wordsFrom, if_neg notFirst]
      exact ih

theorem column_keywordsOf_sublist (expressions : Nat) (sequence : List Word) :
    ((keywordsOf expressions sequence).map KeywordAt.column).Sublist
      (sequence.map Word.column) := by
  induction sequence generalizing expressions with
  | nil => exact .slnil
  | cons word rest ih =>
      rw [keywordsOf, List.map_cons]
      split
      · exact (ih _).cons _
      · split
        · exact (ih _).cons _
        · exact (ih _).cons_cons _

/-- The keywords of a text come in its order. -/
theorem pairwise_precedes_keywords (first : Nat) (code : List Line) :
    (keywords first code).Pairwise fun found next => found.2.Precedes next.2 := by
  rw [keywords_eq_byLine]
  apply pairwise_byLine
  · intro line chars
    rw [keywordsAt, List.pairwise_map]
    have columns : ((lineKeywords chars).map KeywordAt.column).Pairwise (· < ·) :=
      ((List.pairwise_map.2 (pairwise_column_wordsFrom [] 1 chars))).sublist
        (column_keywordsOf_sublist 0 (words chars))
    exact (List.pairwise_map.1 columns).imp fun behind => .inr ⟨rfl, behind⟩
  · intro line chars later others below found here next there
    obtain ⟨_, _, rfl⟩ := List.mem_map.1 here
    obtain ⟨_, _, rfl⟩ := List.mem_map.1 there
    exact .inl below

/-! ## The account -/

namespace BlockAnalysis

/-- What is reported of closers that close nothing. -/
def strays (analysis : BlockAnalysis) : List Finding :=
  analysis.findings.filter (·.kind ∈ [.extraCloser, .mismatchedUntil])

/-- The account that an analysis gives of the turns in which the keywords of a text were read. -/
structure CountsClosers (turns : List Turn) (analysis : BlockAnalysis) : Prop where
  /-- As many `end` are missing as open blocks call for, less those that took nothing and those that
  took a `repeat`. -/
  missing_eq : analysis.missing = (analysis.unclosed.countP OpenBlock.needsEnd : Int) -
    analysis.findings.countP (·.kind = .extraCloser) - turns.countP Turn.endsRepeat
  /-- The closers that took nothing are reported, -/
  map_strays : analysis.strays.map (fun finding => (finding.kind, finding.position)) =
    turns.filterMap Turn.stray?
  /-- in the order of the text, -/
  strays_inOrder : analysis.strays.Pairwise fun first second =>
    first.position.Precedes second.position
  /-- and their lines are listed. -/
  extraLines_eq : analysis.extraLines = analysis.strays.map (·.position.line)
  extraLines_eq_turns : analysis.extraLines =
    (turns.filterMap Turn.stray?).map fun stray => stray.2.line
  unclosed_inOrder : analysis.unclosed.Pairwise fun first second =>
    first.opened.Precedes second.opened
  /-- At least as many blocks are reported open as `end` are missing. -/
  missing_le : analysis.missing ≤ analysis.findings.countP (·.kind = .unclosedBlock)

theorem strays_ofState {state : BlockState}
    (closers : ∀ finding ∈ state.findings, isCloserFinding finding) :
    (ofState state).strays = state.findings.reverse := by
  rw [strays, ofState, List.filter_append, List.filter_eq_self.2, List.filter_eq_nil_iff.2,
    List.append_nil]
  · intro finding found
    obtain ⟨block, _, rfl⟩ := List.mem_map.1 found
    simp [Finding.kind, Cause.kind]
  · intro finding found
    simpa [isCloserFinding] using closers finding (List.mem_reverse.1 found)

/-- The lines noted on the way are those of the strays. -/
theorem extraLines_ofState {state : BlockState}
    (closers : ∀ finding ∈ state.findings, isCloserFinding finding) (noted : state.NotesLines) :
    (ofState state).extraLines = (ofState state).strays.map (·.position.line) := by
  rw [strays_ofState closers, List.map_reverse, ← noted]
  rfl

/-- Every open block is reported in the end. -/
theorem length_le_countP_unclosedBlock (state : BlockState) :
    state.stack.length ≤ (ofState state).findings.countP (·.kind = .unclosedBlock) := by
  have left : (state.stack.reverse.map fun block : OpenBlock =>
      ({ cause := .openBlock block.kind, position := block.opened } : Finding)).countP
        (·.kind = .unclosedBlock) = state.stack.length := by
    rw [List.countP_map, List.countP_eq_length.2, List.length_reverse]
    intro block _
    rfl
  rw [ofState, List.countP_append, left]
  exact Nat.le_add_left _ _

section Reading

variable (word : List (Keyword × Position))

theorem extraLines_readKeywords :
    (ofState (readKeywords {} word)).extraLines =
      (ofState (readKeywords {} word)).strays.map (·.position.line) :=
  extraLines_ofState (readKeywords_findings (List.forall_mem_nil _) word)
    (BlockState.NotesLines.start.readKeywords word)

theorem map_strays_readKeywords :
    (ofState (readKeywords {} word)).strays.map (fun finding => (finding.kind, finding.position)) =
      (turns {} word).filterMap Turn.stray? := by
  rw [strays_ofState (readKeywords_findings (List.forall_mem_nil _) word),
    map_findings_readKeywords]
  rfl

/-- The `end` that take nothing are the ones that are reported as such. -/
theorem countP_extraCloser_readKeywords :
    (ofState (readKeywords {} word)).findings.countP (·.kind = .extraCloser) =
      (turns {} word).countP Turn.isExtraEnd := by
  have amongStrays (findings : List Finding) : findings.countP (·.kind = .extraCloser) =
      (findings.filter (·.kind ∈ [.extraCloser, .mismatchedUntil])).countP
        (·.kind = .extraCloser) := by
    rw [List.countP_filter]
    refine List.countP_congr ?_
    intro finding _
    simp only [Bool.and_eq_true, decide_eq_true_eq, iff_self_and]
    intro kind
    rw [kind]
    exact .head _
  calc (ofState (readKeywords {} word)).findings.countP (·.kind = .extraCloser)
      = (ofState (readKeywords {} word)).strays.countP (·.kind = .extraCloser) := amongStrays _
    _ = ((ofState (readKeywords {} word)).strays.map
          fun finding => (finding.kind, finding.position)).countP (·.1 = .extraCloser) := by
        rw [List.countP_map]
        rfl
    _ = (turns {} word).countP Turn.isExtraEnd := by
        rw [map_strays_readKeywords, List.countP_filterMap]
        simp only [Turn.isExtraEnd_of_stray?]

/-- What the surplus is in the end is counted in the findings and in the turns. -/
theorem missing_readKeywords :
    (ofState (readKeywords {} word)).missing =
      ((ofState (readKeywords {} word)).unclosed.countP OpenBlock.needsEnd : Int) -
        (ofState (readKeywords {} word)).findings.countP (·.kind = .extraCloser) -
        (turns {} word).countP Turn.endsRepeat := by
  have surplus := surplus_readKeywords {} word
  rw [countP_extraCloser_readKeywords]
  simp only [missing, ofState, List.countP_reverse]
  simp only [BlockState.surplus, List.countP_nil] at surplus
  omega

/-- Reading keywords in the order of the text accounts for the closers among them. -/
theorem countsClosers_readKeywords
    (inOrder : word.Pairwise fun found next => found.2.Precedes next.2) :
    (ofState (readKeywords {} word)).CountsClosers (turns {} word) := by
  have places : (word.map Prod.snd).Pairwise Position.Precedes := List.pairwise_map.2 inOrder
  constructor
  case missing_eq => exact missing_readKeywords word
  case map_strays => exact map_strays_readKeywords word
  case strays_inOrder =>
    have order := places.sublist (map_position_turns {} word ▸ strays_sublist (turns {} word))
    rw [← map_strays_readKeywords, List.map_map] at order
    exact List.pairwise_map.1 order
  case extraLines_eq => exact extraLines_readKeywords word
  case extraLines_eq_turns =>
    rw [← map_strays_readKeywords, List.map_map]
    exact extraLines_readKeywords word
  case unclosed_inOrder =>
    exact List.pairwise_map.1 (places.sublist (opened_sublist_readKeywords {} word))
  case missing_le =>
    have open_ := length_le_countP_unclosedBlock (readKeywords {} word)
    have calling : (ofState (readKeywords {} word)).unclosed.countP OpenBlock.needsEnd ≤
        (readKeywords {} word).stack.length :=
      List.countP_le_length.trans_eq List.length_reverse
    rw [missing_readKeywords]
    omega

end Reading

/-- The analysis of a text accounts for its closers. -/
theorem countsClosers_of_text (text : List Char) :
    (ofCode (Scan.ofText text).code).CountsClosers
      (turns {} (keywords 1 (Scan.ofText text).code)) :=
  countsClosers_readKeywords _ (pairwise_precedes_keywords 1 _)

-- The `end` takes the `repeat`, so it is one too many and nothing is open.
example : (ofCode ["repeat end".toList]).missing = -1 := by
  decide +kernel

end BlockAnalysis

end EditGate.Lua

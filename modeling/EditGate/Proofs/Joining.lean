import EditGate.Proofs.Validity
import Mathlib

/-!
# Joined texts

Two texts are joined by a line feed. If the first leaves no long bracket open, the scan of
the joined text is the scan of the first, followed by the scan of the second with every place
as many lines further down as the first has. Nothing else is carried over the line feed.

The two balances carry what is open in addition. If the first text leaves nothing open and
nothing is reported of it, the second is read as if it stood alone, so that a text joined from
two valid ones is valid.
-/

namespace EditGate

/-! ## Places further down -/

/-- The place that many lines further down. -/
def Position.down (count : Nat) (position : Position) : Position :=
  { position with line := position.line + count }

/-- The cause, with the places that it speaks of that many lines further down. -/
def Cause.down (count : Nat) : Cause → Cause
  | .wrongUntil (some (kind, line)) => .wrongUntil (some (kind, line + count))
  | .wrongBracket closing opening openedAt =>
      .wrongBracket closing opening (openedAt.down count)
  | cause => cause

/-- The finding, that many lines further down. -/
def Finding.down (count : Nat) (finding : Finding) : Finding :=
  { finding with
    cause := finding.cause.down count
    position := finding.position.down count }

namespace Lua

/-- The span, that many lines further down. -/
def Span.down (count : Nat) (span : Span) : Span :=
  { span with line := span.line + count }

/-- The long bracket, opened that many lines further down. -/
def OpenBracket.down (count : Nat) (bracket : OpenBracket) : OpenBracket :=
  { bracket with opened := bracket.opened.down count }

/-- The scan of a line, that many lines further down. -/
def LineScan.down (count : Nat) (scan : LineScan) : LineScan :=
  { scan with carry := scan.carry.map (OpenBracket.down count) }

/-- The open block, opened that many lines further down. -/
def OpenBlock.down (count : Nat) (block : OpenBlock) : OpenBlock :=
  { block with opened := block.opened.down count }

/-- The open bracket, opened that many lines further down. -/
def BracketAt.down (count : Nat) (bracket : BracketAt) : BracketAt :=
  { bracket with opened := bracket.opened.down count }

/-! ## What lines yield -/

/-- The report of a string that the end of its line cuts off. -/
def openStringOf (line : Nat) (scan : LineScan) : List Finding :=
  match scan.openString with
  | some (quote, column) => [{ cause := .openString quote, position := ⟨line, column⟩ }]
  | none => []

/-- The keywords of a line of code with their positions. -/
def keywordsAt (line : Nat) (code : Line) : List (Keyword × Position) :=
  (lineKeywords code).map fun found => (found.keyword, ⟨line, found.column⟩)

theorem ofScans_eq_byLine (line : Nat) (scans : List LineScan) :
    Span.ofScans line scans = byLine (fun line scan => Span.ofPieces line 0 scan.pieces) line
      scans := by
  induction scans generalizing line with
  | nil => rfl
  | cons scan rest ih => rw [Span.ofScans, byLine, ih]

theorem openStrings_eq_byLine (line : Nat) (scans : List LineScan) :
    openStrings line scans = byLine openStringOf line scans := by
  induction scans generalizing line with
  | nil => rfl
  | cons scan rest ih =>
      rw [openStrings, byLine, ih]
      rfl

theorem keywords_eq_byLine (line : Nat) (code : List Line) :
    keywords line code = byLine keywordsAt line code := by
  induction code generalizing line with
  | nil => rfl
  | cons chars rest ih =>
      rw [keywords, byLine, ih]
      rfl

/-! ## Scans -/

namespace LineScan

variable (count : Nat)

@[simp]
theorem down_prepend (piece : Piece) (scan : LineScan) :
    (scan.prepend piece).down count = (scan.down count).prepend piece :=
  rfl

@[simp]
theorem down_prependCode (char : Char) (scan : LineScan) :
    (scan.prependCode char).down count = (scan.down count).prependCode char := by
  simp only [prependCode, down]
  split <;> rfl

end LineScan

/-- Code further down is cut in the same way. -/
theorem scanCode_down (count line column : Nat) (chars : List Char) :
    scanCode (line + count) column chars = (scanCode line column chars).down count := by
  induction column, chars using scanCode.induct with
  | case1 column =>
      rw [scanCode_nil, scanCode_nil]
      rfl
  | case2 column char rest opens ih =>
      rw [scanCode_code opens, scanCode_code opens, ih, LineScan.down_prependCode]
  | case3 column char rest opens =>
      rw [scanCode_lineComment opens, scanCode_lineComment opens]
      rfl
  | case4 column char rest level isComment opens uncut =>
      rw [scanCode_long_open opens uncut, scanCode_long_open opens uncut]
      rfl
  | case5 column char rest level isComment opens body after cut ih =>
      rw [scanCode_long_closed opens cut, scanCode_long_closed opens cut, ih,
        LineScan.down_prepend]
  | case6 column char rest quote opens unclosed =>
      rw [scanCode_string_open opens unclosed, scanCode_string_open opens unclosed]
      rfl
  | case7 column char rest quote opens body after closed ih =>
      rw [scanCode_string_closed opens closed, scanCode_string_closed opens closed, ih,
        LineScan.down_prepend]

theorem scanLine_down (count line : Nat) (carry : Option OpenBracket) (chars : Line) :
    scanLine (line + count) (carry.map (OpenBracket.down count)) chars =
      (scanLine line carry chars).down count := by
  cases carry with
  | none => exact scanCode_down count line 1 chars
  | some bracket =>
      simp only [scanLine, Option.map_some, OpenBracket.down]
      cases splitAfter? (longCloser bracket.level) chars with
      | none => rfl
      | some pair =>
          obtain ⟨body, after⟩ := pair
          simp only [scanCode_down, LineScan.down_prepend]

theorem scanLines_down (count line : Nat) (carry : Option OpenBracket) (lines : List Line) :
    scanLines (line + count) (carry.map (OpenBracket.down count)) lines =
      (scanLines line carry lines).map (LineScan.down count) := by
  induction lines generalizing line carry with
  | nil => rfl
  | cons chars rest ih =>
      have next : line + count + 1 = line + 1 + count := by omega
      simp only [scanLines, scanLine_down, List.map_cons, next]
      exact congrArg _ (ih (line + 1) _)

theorem scanLines_append (line : Nat) (carry : Option OpenBracket) (first second : List Line) :
    scanLines line carry (first ++ second) =
      scanLines line carry first ++
        scanLines (line + first.length) (readLines line carry first).carry second := by
  induction first generalizing line carry with
  | nil => rfl
  | cons chars rest ih =>
      have place : line + 1 + rest.length = line + (chars :: rest).length := by
        rw [List.length_cons]
        omega
      simp only [List.cons_append, scanLines, ih, place]
      rfl

end Lua

/-- The number of lines of a text. -/
def Line.height (text : List Char) : Nat :=
  (split text).length

namespace Lua.Scan

open Line (height)

variable {first second : List Char}

/-- Behind a text that leaves no long bracket open, another one is cut as if it stood alone. -/
theorem scans_join (closed : (ofText first).openBracket = none) :
    (ofText (first ++ '\n' :: second)).scans =
      (ofText first).scans ++ (ofText second).scans.map (LineScan.down (height first)) := by
  have carry : (readLines 1 none (Line.split first)).carry = none :=
    (Analysis.openBracket_ofText first).symm.trans closed
  have further := scanLines_down (height first) 1 none (Line.split second)
  simp only [ofText, Line.split_join, scanLines_append, carry]
  exact congrArg _ further

theorem length_scans (text : List Char) : (ofText text).scans.length = height text := by
  have same : ∀ (line : Nat) (carry : Option OpenBracket) (lines : List Line),
      (scanLines line carry lines).length = lines.length := by
    intro line carry lines
    induction lines generalizing line carry with
    | nil => rfl
    | cons chars rest ih => rw [scanLines, List.length_cons, List.length_cons, ih]
  exact same 1 none (Line.split text)

theorem scans_ne_nil (text : List Char) : (ofText text).scans ≠ [] := by
  intro empty
  have none := length_scans text
  rw [empty] at none
  exact Line.split_ne_nil text (List.length_eq_zero_iff.1 none.symm)

theorem code_join (closed : (ofText first).openBracket = none) :
    (ofText (first ++ '\n' :: second)).code = (ofText first).code ++ (ofText second).code := by
  simp only [code, scans_join closed, List.map_append, List.map_map]
  rfl

theorem openBracket_join (closed : (ofText first).openBracket = none) :
    (ofText (first ++ '\n' :: second)).openBracket =
      (ofText second).openBracket.map (OpenBracket.down (height first)) := by
  simp only [openBracket, scans_join closed]
  rw [List.getLast?_append_of_ne_nil _ (by simpa using scans_ne_nil second), List.getLast?_map]
  cases (ofText second).scans.getLast? <;> rfl

theorem ofPieces_down (count line start : Nat) (pieces : List Piece) :
    Span.ofPieces (line + count) start pieces =
      (Span.ofPieces line start pieces).map (Span.down count) := by
  induction pieces generalizing start with
  | nil => rfl
  | cons piece rest ih =>
      rw [Span.ofPieces, Span.ofPieces, List.map_cons, ih]
      rfl

theorem spans_join (closed : (ofText first).openBracket = none) :
    (ofText (first ++ '\n' :: second)).spans =
      (ofText first).spans ++ (ofText second).spans.map (Span.down (height first)) := by
  have further := byLine_down (fun line scan => Span.ofPieces line 0 scan.pieces)
    (LineScan.down (height first))
    (fun line scan => ofPieces_down (height first) line 0 scan.pieces) 1 (ofText second).scans
  simp only [spans, ofScans_eq_byLine, scans_join closed, byLine_append, length_scans, further]

theorem openStringOf_down (count line : Nat) (scan : LineScan) :
    openStringOf (line + count) (scan.down count) =
      (openStringOf line scan).map (Finding.down count) := by
  simp only [openStringOf, LineScan.down]
  cases scan.openString <;> rfl

theorem findings_join (closed : (ofText first).openBracket = none) :
    (ofText (first ++ '\n' :: second)).findings =
      (ofText first).findings ++ (ofText second).findings.map (Finding.down (height first)) := by
  have further := byLine_down openStringOf _ (openStringOf_down (height first)) 1
    (ofText second).scans
  simp only [findings, openBracket_join closed, closed, scans_join closed, openStrings_eq_byLine,
    byLine_append, length_scans, further, List.append_nil, List.map_append, List.append_assoc]
  cases (ofText second).openBracket <;> rfl

end Lua.Scan

/-! ## Balances -/

namespace Lua

/-- The state that is reached if other lines stand in front, at whose end nothing is open or
reported: places are further down, and the `end` of those lines are counted as well. -/
def BlockState.behind (count expected found : Nat) (state : BlockState) : BlockState where
  stack := state.stack.map (OpenBlock.down count)
  expected := expected + state.expected
  found := found + state.found
  extraLines := state.extraLines.map (· + count)
  findings := state.findings.map (Finding.down count)

/-- The state with its places that many lines further down. -/
def BracketState.down (count : Nat) (state : BracketState) : BracketState where
  stack := state.stack.map (BracketAt.down count)
  findings := state.findings.map (Finding.down count)

/-- The keyword, that many lines further down. -/
def keywordDown (count : Nat) (found : Keyword × Position) : Keyword × Position :=
  (found.1, found.2.down count)

/-- The bracket, that many lines further down. -/
def bracketDown (count : Nat) (found : Bracket × Position) : Bracket × Position :=
  (found.1, found.2.down count)

namespace BlockState

variable {count expected found : Nat}

theorem openBlock_behind (state : BlockState) (kind : BlockKind) (position : Position) :
    (state.behind count expected found).openBlock kind (position.down count) =
      (state.openBlock kind position).behind count expected found := by
  obtain ⟨stack, _, _, _, findings⟩ := state
  cases stack with
  | nil => cases kind <;> rfl
  | cons top rest =>
      obtain ⟨loop, opened, awaitsDo⟩ := top
      cases awaitsDo <;> cases kind <;> rfl

theorem closeEnd_behind (state : BlockState) (position : Position) :
    (state.behind count expected found).closeEnd (position.down count) =
      (state.closeEnd position).behind count expected found := by
  obtain ⟨stack, _, _, _, findings⟩ := state
  cases stack with
  | nil => rfl
  | cons top rest => rfl

theorem closeUntil_behind (state : BlockState) (position : Position) :
    (state.behind count expected found).closeUntil (position.down count) =
      (state.closeUntil position).behind count expected found := by
  obtain ⟨stack, _, _, _, findings⟩ := state
  cases stack with
  | nil => rfl
  | cons top rest =>
      by_cases isRepeat : top.kind = .repeatLoop
      · simp [closeUntil, behind, OpenBlock.down, isRepeat]
      · simp [closeUntil, behind, OpenBlock.down, isRepeat, report, noteExtra, Finding.down,
          Cause.down, Position.down]

theorem step_behind (state : BlockState) (keyword : Keyword) (position : Position) :
    (state.behind count expected found).step keyword (position.down count) =
      (state.step keyword position).behind count expected found := by
  cases keyword with
  | opener kind => exact state.openBlock_behind kind position
  | blockEnd => exact state.closeEnd_behind position
  | loopUntil => exact state.closeUntil_behind position

end BlockState

theorem readKeywords_behind {count expected found : Nat} (state : BlockState)
    (sequence : List (Keyword × Position)) :
    readKeywords (state.behind count expected found) (sequence.map (keywordDown count)) =
      (readKeywords state sequence).behind count expected found := by
  induction sequence generalizing state with
  | nil => rfl
  | cons keyword rest ih =>
      rw [List.map_cons, readKeywords_cons, readKeywords_cons, ← ih, ← state.step_behind]
      rfl

theorem BracketState.step_down (count : Nat) (state : BracketState) (bracket : Bracket)
    (position : Position) :
    (state.down count).step bracket (position.down count) =
      (state.step bracket position).down count := by
  obtain ⟨stack, findings⟩ := state
  cases bracket with
  | opening family => rfl
  | closing family =>
      cases stack with
      | nil => rfl
      | cons top rest =>
          by_cases same : top.family = family
          · simp [step, down, BracketAt.down, same]
          · simp [step, down, BracketAt.down, same, Finding.down, Cause.down]

theorem readBrackets_down (count : Nat) (state : BracketState)
    (sequence : List (Bracket × Position)) :
    readBrackets (state.down count) (sequence.map (bracketDown count)) =
      (readBrackets state sequence).down count := by
  induction sequence generalizing state with
  | nil => rfl
  | cons bracket rest ih =>
      rw [List.map_cons, readBrackets_cons, readBrackets_cons, ← ih, ← state.step_down]
      rfl

theorem keywordsAt_down (count line : Nat) (code : Line) :
    keywordsAt (line + count) code = (keywordsAt line code).map (keywordDown count) := by
  simp only [keywordsAt, List.map_map]
  rfl

theorem lineBrackets_down (count line column : Nat) (code : List Char) :
    lineBrackets (line + count) column code =
      (lineBrackets line column code).map (bracketDown count) := by
  induction code generalizing column with
  | nil => rfl
  | cons char rest ih =>
      rw [lineBrackets, lineBrackets, ih]
      cases Bracket.ofChar? char <;> rfl

namespace Scan

open Line (height)

variable {first second : List Char}

theorem length_code (text : List Char) : (ofText text).code.length = height text := by
  rw [code, List.length_map, length_scans]

theorem keywords_join (closed : (ofText first).openBracket = none) :
    keywords 1 (ofText (first ++ '\n' :: second)).code =
      keywords 1 (ofText first).code ++
        (keywords 1 (ofText second).code).map (keywordDown (height first)) := by
  have further := byLine_down keywordsAt id (keywordsAt_down (height first)) 1 (ofText second).code
  rw [List.map_id] at further
  simp only [keywords_eq_byLine, code_join closed, byLine_append, length_code, further]

theorem brackets_join (closed : (ofText first).openBracket = none) :
    brackets 1 (ofText (first ++ '\n' :: second)).code =
      brackets 1 (ofText first).code ++
        (brackets 1 (ofText second).code).map (bracketDown (height first)) := by
  have further := byLine_down (fun line chars => lineBrackets line 1 chars) id
    (fun line chars => lineBrackets_down (height first) line 1 chars) 1 (ofText second).code
  rw [List.map_id] at further
  simp only [brackets_eq_byLine, code_join closed, byLine_append, length_code, further]

end Scan

/-- Behind code at whose end nothing is open or reported, other code is balanced as if it
stood alone. -/
theorem BlockAnalysis.readKeywords_append_down {first : List (Keyword × Position)}
    (clean : (ofState (readKeywords {} first)).findings = []) (count : Nat)
    (second : List (Keyword × Position)) :
    readKeywords {} (first ++ second.map (keywordDown count)) =
      (readKeywords {} second).behind count (readKeywords {} first).expected
        (readKeywords {} first).found := by
  have noted : (readKeywords {} first).NotesLines := BlockState.NotesLines.start.readKeywords first
  rw [readKeywords_append]
  generalize readKeywords {} first = state at clean noted ⊢
  obtain ⟨stack, expected, found, extraLines, findings⟩ := state
  obtain ⟨rfl, rfl⟩ := (findings_ofState_eq_nil_iff _).1 clean
  obtain rfl : extraLines = [] := noted
  exact readKeywords_behind {} second

theorem BracketAnalysis.readBrackets_append_down {first : List (Bracket × Position)}
    (clean : (ofState (readBrackets {} first)).findings = []) (count : Nat)
    (second : List (Bracket × Position)) :
    readBrackets {} (first ++ second.map (bracketDown count)) =
      (readBrackets {} second).down count := by
  rw [readBrackets_append]
  generalize readBrackets {} first = state at clean ⊢
  obtain ⟨stack, findings⟩ := state
  obtain ⟨rfl, rfl⟩ : findings = [] ∧ stack = [] := by simpa [ofState] using clean
  exact readBrackets_down count {} second

end Lua

/-! ## Verdicts -/

namespace Analysis

open Lua Line

variable {rules : Option Lint.Rules} {first : List Char}

/-- Behind a text without errors, the blocks of another one are balanced as if it stood alone. -/
theorem blocks_join (clean : (ofText rules first).errors = []) (second : List Char) :
    (ofText rules (first ++ '\n' :: second)).blocks =
      .ofState ((readKeywords {} (keywords 1 (Scan.ofText second).code)).behind (height first)
        (ofText rules first).blocks.expected (ofText rules first).blocks.found) := by
  obtain ⟨closed, balanced, _⟩ := (errors_ofText_eq_nil_iff rules first).1 clean
  rw [← openBracket_ofText] at closed
  have joined := BlockAnalysis.readKeywords_append_down balanced (height first)
    (keywords 1 (Scan.ofText second).code)
  rw [← Scan.keywords_join closed] at joined
  exact congrArg BlockAnalysis.ofState joined

theorem brackets_join (clean : (ofText rules first).errors = []) (second : List Char) :
    (ofText rules (first ++ '\n' :: second)).brackets =
      .ofState ((readBrackets {} (Lua.brackets 1 (Scan.ofText second).code)).down
        (height first)) := by
  obtain ⟨closed, _, balanced⟩ := (errors_ofText_eq_nil_iff rules first).1 clean
  rw [← openBracket_ofText] at closed
  have joined := BracketAnalysis.readBrackets_append_down balanced (height first)
    (Lua.brackets 1 (Scan.ofText second).code)
  rw [← Scan.brackets_join closed] at joined
  exact congrArg BracketAnalysis.ofState joined

/-- Behind a text without errors, another one has errors exactly if it has some alone. -/
theorem errors_join_eq_nil_iff (clean : (ofText rules first).errors = []) (second : List Char) :
    (ofText rules (first ++ '\n' :: second)).errors = [] ↔ (ofText rules second).errors = [] := by
  have closed : (Scan.ofText first).openBracket = none :=
    (openBracket_ofText first).trans ((errors_ofText_eq_nil_iff rules first).1 clean).1
  have carry : (readText (first ++ '\n' :: second)).carry = none ↔
      (readText second).carry = none := by
    rw [← openBracket_ofText, ← openBracket_ofText, Scan.openBracket_join closed,
      Option.map_eq_none_iff]
  have blocks : (ofText rules (first ++ '\n' :: second)).blocks.findings = [] ↔
      (ofText rules second).blocks.findings = [] := by
    have alone : (ofText rules second).blocks =
        .ofState (readKeywords {} (keywords 1 (Scan.ofText second).code)) := rfl
    simp [blocks_join clean second, alone, BlockAnalysis.ofState, BlockState.behind]
  have brackets : (ofText rules (first ++ '\n' :: second)).brackets.findings = [] ↔
      (ofText rules second).brackets.findings = [] := by
    have alone : (ofText rules second).brackets =
        .ofState (readBrackets {} (Lua.brackets 1 (Scan.ofText second).code)) := rfl
    simp [brackets_join clean second, alone, BracketAnalysis.ofState, BracketState.down]
  rw [errors_ofText_eq_nil_iff, errors_ofText_eq_nil_iff, carry, blocks, brackets]

end Analysis

namespace Report

open Lua Line

theorem valid_ofText_iff (policy : Policy) (text : List Char) :
    (ofText policy text).valid ↔ (Analysis.ofText policy.rules text).errors = [] := by
  have sorted : (ofText policy text).errors =
      Finding.sort (Analysis.ofText policy.rules text).errors := rfl
  rw [valid, List.isEmpty_iff, sorted, Finding.sort, ← List.length_eq_zero_iff,
    List.length_mergeSort, List.length_eq_zero_iff]

/-- Over a line feed, a scan carries nothing but an open long bracket: where there is none, the
spans and findings of a joined text are those of the first part, and those of the second that
many lines further down. Behind a valid text, another one is valid exactly if it is so alone,
and the `end` that the blocks call for and the `end` that there are add up. -/
theorem scan_join_and_valid_join (first second : List Char) :
    ((Scan.ofText first).openBracket = none →
      (Scan.ofText (first ++ '\n' :: second)).spans =
        (Scan.ofText first).spans ++
          (Scan.ofText second).spans.map (Span.down (height first)) ∧
      (Scan.ofText (first ++ '\n' :: second)).findings =
        (Scan.ofText first).findings ++
          (Scan.ofText second).findings.map (Finding.down (height first))) ∧
    ∀ policy : Policy, (ofText policy first).valid →
      ((ofText policy (first ++ '\n' :: second)).valid ↔ (ofText policy second).valid) ∧
      (ofText policy (first ++ '\n' :: second)).blocks.expected =
        (ofText policy first).blocks.expected + (ofText policy second).blocks.expected ∧
      (ofText policy (first ++ '\n' :: second)).blocks.found =
        (ofText policy first).blocks.found + (ofText policy second).blocks.found := by
  constructor
  · intro closed
    exact ⟨Scan.spans_join closed, Scan.findings_join closed⟩
  · intro policy clean
    rw [valid_ofText_iff] at clean
    have blocks := Analysis.blocks_join clean second
    refine ⟨?_, congrArg BlockAnalysis.expected blocks, congrArg BlockAnalysis.found blocks⟩
    rw [valid_ofText_iff, valid_ofText_iff]
    exact Analysis.errors_join_eq_nil_iff clean second

/-- A conditional with a string that is cut off, and a loop with an `end` inside a string. -/
theorem scan_join_and_valid_join_loop :
    (Scan.ofText ("if a then b = 'end\nend -- [[".toList ++
        '\n' :: "while c do\n  f(') end')\nend".toList)).findings =
      [{ cause := .openString '\'', position := ⟨1, 15⟩ }] ∧
    (ofText ⟨true, none⟩ ("if a then b = 'end\nend -- [[".toList ++
        '\n' :: "while c do\n  f(') end')\nend".toList)).valid ∧
    (ofText ⟨true, none⟩ ("if a then b = 'end\nend -- [[".toList ++
        '\n' :: "while c do\n  f(') end')\nend".toList)).blocks.expected = 2 := by
  obtain ⟨scan, verdict⟩ := scan_join_and_valid_join "if a then b = 'end\nend -- [[".toList
    "while c do\n  f(') end')\nend".toList
  obtain ⟨valid, expected, _⟩ := verdict ⟨true, none⟩ (by decide +kernel)
  refine ⟨(scan (by decide +kernel)).2.trans (by decide +kernel), valid.2 (by decide +kernel),
    expected.trans (by decide +kernel)⟩

end Report

end EditGate

import EditGate.Proofs.Buffer
import EditGate.Proofs.Validity
import EditGate.Repair
import Mathlib

/-!
# The reach of the repair

The repaired text has the lines of the text without the blank ones at its end, and then
the missing `end`. Its reading is that of the text, followed by that of the added lines,
since neither line endings nor blank lines are read. So the repaired text is valid exactly
if nothing but open blocks was wrong with the text and as many `end` are missing as blocks
are open.
-/

namespace EditGate

open Lua

namespace Repair

/-! ## The lines of the repaired text -/

/-- A line as the repair takes it over, before the line ending is put behind it. -/
def bare (ending : LineEnding) (line : Line) : Line :=
  if ending = .returnLineFeed then line.stripReturn else line

/-- A line as the repair writes it, up to the line feed. -/
def written (ending : LineEnding) (line : Line) : Line :=
  bare ending line ++ ending.returns

theorem stripReturn_append_return (line : Line) : Line.stripReturn (line ++ ['\r']) = line := by
  simp [Line.stripReturn]

theorem written_cases (ending : LineEnding) (line : Line) :
    written ending line = line ∨ written ending line = line ++ ['\r'] := by
  cases ending with
  | lineFeed => exact Or.inl (List.append_nil line)
  | returnLineFeed =>
      by_cases returned : line.getLast? = some '\r'
      · left
        obtain ⟨front, rfl⟩ := List.getLast?_eq_some_iff.1 returned
        simp [written, bare, Line.stripReturn, LineEnding.returns]
      · right
        simp [written, bare, Line.stripReturn, LineEnding.returns, returned]

theorem stripReturn_written (ending : LineEnding) (line : Line) :
    (written ending line).stripReturn = line.stripReturn := by
  cases ending with
  | lineFeed => simp [written, bare, LineEnding.returns]
  | returnLineFeed => simp [written, bare, LineEnding.returns, stripReturn_append_return]

theorem all_isBlank_stripReturn (line : Line) :
    line.stripReturn.all Text.isBlank = line.all Text.isBlank := by
  by_cases returned : line.getLast? = some '\r'
  · obtain ⟨front, rfl⟩ := List.getLast?_eq_some_iff.1 returned
    have blank : Text.isBlank '\r' = true := by decide
    simp [stripReturn_append_return, blank]
  · simp [Line.stripReturn, returned]

theorem dropBlankEnd_eq_rdropWhile (lines : List Line) :
    dropBlankEnd lines = lines.rdropWhile (·.all Text.isBlank) :=
  rfl

/-- Whether a line is blank does not depend on its carriage return, so it can be taken off
before or after the blank lines at the end are dropped. -/
theorem dropBlankEnd_map_stripReturn (lines : List Line) :
    dropBlankEnd (lines.map Line.stripReturn) = (dropBlankEnd lines).map Line.stripReturn := by
  simp only [dropBlankEnd, ← List.map_reverse, List.dropWhile_map, Function.comp_def,
    all_isBlank_stripReturn]

/-- What is dropped at the end is blank. -/
theorem exists_dropBlankEnd_append (lines : List Line) :
    ∃ dropped, lines = dropBlankEnd lines ++ dropped ∧ ∀ line ∈ dropped, IsBlankLine line := by
  refine ⟨lines.rtakeWhile (·.all Text.isBlank), ?_, ?_⟩
  · rw [dropBlankEnd_eq_rdropWhile, List.rdropWhile_append_rtakeWhile]
  · intro line found
    exact List.all_eq_true.1
      (List.mem_rtakeWhile_imp (p := fun line : Line => line.all Text.isBlank) found)

/-- The lines that the repair takes over hold no line feed. -/
theorem newline_notMem_bare {text : List Char} (ending : LineEnding) {line : Line}
    (found : line ∈ dropBlankEnd (Buffer.ofText text).lines) : '\n' ∉ bare ending line := by
  obtain ⟨dropped, whole, -⟩ := exists_dropBlankEnd_append (Buffer.ofText text).lines
  obtain ⟨remainder, split, -⟩ := Buffer.split_eq_lines_append text
  have inText : line ∈ Line.split text := by
    rw [split, whole, List.mem_append, List.mem_append]
    exact Or.inl (Or.inl found)
  intro inBare
  refine Line.newline_notMem_split inText ?_
  unfold bare Line.stripReturn at inBare
  split at inBare
  · split at inBare
    · exact (List.dropLast_sublist line).mem inBare
    · exact inBare
  · exact inBare

theorem exists_toNat_missing_eq {blocks : BlockAnalysis} (missing : 0 < blocks.missing) :
    ∃ count, blocks.missing.toNat = count + 1 :=
  Nat.exists_eq_succ_of_ne_zero (by omega)

/-- The repaired text is written with the ending of the text. -/
theorem close_eq_toText (blocks : BlockAnalysis) (text : List Char) :
    close blocks text = Buffer.toText (.ofText text)
      ⟨(dropBlankEnd (Buffer.ofText text).lines).map (bare (.ofText text)) ++
        List.replicate blocks.missing.toNat "end".toList, (Buffer.ofText text).ended⟩ := by
  have lines : dropBlankEnd (if LineEnding.ofText text = .returnLineFeed
        then (Buffer.ofText text).lines.map Line.stripReturn else (Buffer.ofText text).lines) =
      (dropBlankEnd (Buffer.ofText text).lines).map (bare (.ofText text)) := by
    unfold bare
    split
    next => exact dropBlankEnd_map_stripReturn _
    next => rw [List.map_id']
  rw [close, lines]

section Closed

variable {blocks : BlockAnalysis} {text : List Char} {count : Nat}

/-- The repaired text as a buffer of lines that are still to be ended. -/
theorem close_eq (missing : blocks.missing.toNat = count + 1) :
    close blocks text = Buffer.toText (.ofText text)
      ⟨((dropBlankEnd (Buffer.ofText text).lines).map (bare (.ofText text)) ++
          List.replicate count "end".toList) ++ ["end".toList],
        (Buffer.ofText text).ended⟩ := by
  rw [close_eq_toText, missing, List.replicate_succ', ← List.append_assoc]

theorem newline_notMem_closed {ending : LineEnding} :
    ∀ line ∈ (dropBlankEnd (Buffer.ofText text).lines).map (bare ending) ++
      List.replicate count "end".toList, '\n' ∉ line := by
  intro line found
  rcases List.mem_append.1 found with kept | added
  · obtain ⟨original, member, rfl⟩ := List.mem_map.1 kept
    exact newline_notMem_bare ending member
  · rw [List.eq_of_mem_replicate added]
    decide

/-- The lines of the repaired text, the remainder behind the last line feed included. -/
theorem split_close (missing : blocks.missing.toNat = count + 1) :
    Line.split (close blocks text) =
      (dropBlankEnd (Buffer.ofText text).lines).map (written (.ofText text)) ++
        (List.replicate count ("end".toList ++ (LineEnding.ofText text).returns) ++
          if (Buffer.ofText text).ended
          then ["end".toList ++ (LineEnding.ofText text).returns, []] else ["end".toList]) := by
  rw [close_eq missing, Buffer.split_toText newline_notMem_closed (by decide), List.map_append,
    List.map_map, List.map_replicate, List.append_assoc]
  rfl

theorem lines_close (missing : blocks.missing.toNat = count + 1) :
    (Buffer.ofText (close blocks text)).lines =
      (dropBlankEnd (Buffer.ofText text).lines).map (written (.ofText text)) ++
        (List.replicate count ("end".toList ++ (LineEnding.ofText text).returns) ++
          [if (Buffer.ofText text).ended
            then "end".toList ++ (LineEnding.ofText text).returns else "end".toList]) := by
  rw [close_eq missing, Buffer.lines_ofText_toText newline_notMem_closed (by decide) (by decide),
    List.map_append, List.map_map, List.map_replicate, List.append_assoc]
  rfl

end Closed

/-- The carriage return of a line ending is not part of the word before it. -/
theorem stripReturn_end (ending : LineEnding) :
    Line.stripReturn ("end".toList ++ ending.returns) = "end".toList := by
  cases ending <;> decide

/-- Up to carriage returns, the repaired text has the lines of the text without the blank ones
at its end, and then the missing `end`. -/
theorem map_stripReturn_lines_close {blocks : BlockAnalysis} (missing : 0 < blocks.missing)
    (text : List Char) :
    (Buffer.ofText (close blocks text)).lines.map Line.stripReturn =
      ((Buffer.ofText text).lines.map Line.stripReturn).rdropWhile (·.all Text.isBlank) ++
        List.replicate blocks.missing.toNat "end".toList := by
  obtain ⟨count, counted⟩ := exists_toNat_missing_eq missing
  have last (ended : Bool) : Line.stripReturn
      (if ended then "end".toList ++ (LineEnding.ofText text).returns else "end".toList) =
        "end".toList := by
    cases ended with
    | false => simpa [LineEnding.returns] using stripReturn_end .lineFeed
    | true => exact stripReturn_end _
  rw [lines_close counted, counted, List.map_append, List.map_append, List.map_replicate,
    stripReturn_end, List.map_singleton, last, ← List.replicate_succ', List.map_map,
    ← dropBlankEnd_eq_rdropWhile, dropBlankEnd_map_stripReturn]
  congr 1
  exact List.map_congr_left fun line _ => stripReturn_written _ line

/-! ## The reading of the repaired text -/

/-- The lines that the repair keeps are read as the text is. -/
theorem readLines_kept (text : List Char) :
    readLines 1 none ((dropBlankEnd (Buffer.ofText text).lines).map (written (.ofText text))) =
      readText text := by
  obtain ⟨dropped, whole, blank⟩ := exists_dropBlankEnd_append (Buffer.ofText text).lines
  obtain ⟨remainder, split, empty⟩ := Buffer.split_eq_lines_append text
  have same : List.Forall₂ (fun chars other => other = chars ∨ other = chars ++ ['\r'])
      (dropBlankEnd (Buffer.ofText text).lines)
      ((dropBlankEnd (Buffer.ofText text).lines).map (written (.ofText text))) := by
    rw [List.forall₂_map_right_iff, List.forall₂_same]
    exact fun line _ => written_cases _ line
  have blankEnd : ∀ chars ∈ dropped ++ remainder, IsBlankLine chars := by
    intro chars found
    rcases List.mem_append.1 found with inDropped | inRemainder
    · exact blank chars inDropped
    · rw [empty chars inRemainder]
      exact fun char impossible => absurd impossible List.not_mem_nil
  calc readLines 1 none ((dropBlankEnd (Buffer.ofText text).lines).map (written (.ofText text)))
      = readLines 1 none (dropBlankEnd (Buffer.ofText text).lines) :=
        readLines_eq_of_forall₂ same 1 none
    _ = readLines 1 none (dropBlankEnd (Buffer.ofText text).lines ++ (dropped ++ remainder)) :=
        (readLines_append_blank 1 none _ blankEnd).symm
    _ = readText text := by rw [readText, split, ← List.append_assoc, ← whole]

/-- The lines that the repair adds are read as lines `end`. -/
theorem readLines_added (ending : LineEnding) (ended : Bool) (line count : Nat)
    (carry : Option OpenBracket) :
    readLines line carry (List.replicate count ("end".toList ++ ending.returns) ++
        if ended then ["end".toList ++ ending.returns, []] else ["end".toList]) =
      readLines line carry (List.replicate (count + 1) "end".toList) := by
  have same (other : Line) (like : other = "end".toList ∨ other = "end".toList ++ ending.returns) :
      other = "end".toList ∨ other = "end".toList ++ ['\r'] := by
    cases ending with
    | lineFeed => exact Or.inl (by simpa [LineEnding.returns] using like)
    | returnLineFeed => exact like
  have ends (last : Line) (like : last = "end".toList ∨ last = "end".toList ++ ending.returns) :
      readLines line carry (List.replicate count ("end".toList ++ ending.returns) ++ [last]) =
        readLines line carry (List.replicate (count + 1) "end".toList) := by
    apply readLines_eq_of_forall₂
    rw [List.replicate_succ']
    refine List.rel_append ?_ (.cons (same last like) .nil)
    induction count with
    | zero => exact .nil
    | succ count ih => exact .cons (same _ (Or.inr rfl)) ih
  cases ended with
  | false => exact ends _ (Or.inl rfl)
  | true =>
      have blank : ∀ chars ∈ [([] : Line)], IsBlankLine chars := by simp [IsBlankLine]
      rw [if_pos rfl, List.append_cons, readLines_append_blank _ _ _ blank]
      exact ends _ (Or.inr rfl)

/-- The repaired text is read as the text and then as the added lines. -/
theorem readText_close {blocks : BlockAnalysis} (missing : 0 < blocks.missing)
    (text : List Char) :
    ∃ line, readText (close blocks text) =
      (readText text).followedBy
        (readLines line (readText text).carry
          (List.replicate blocks.missing.toNat "end".toList)) := by
  obtain ⟨count, counted⟩ := exists_toNat_missing_eq missing
  refine ⟨1 + ((dropBlankEnd (Buffer.ofText text).lines).map (written (.ofText text))).length, ?_⟩
  rw [readText, split_close counted, readLines_append, readLines_kept, readLines_added, counted]

/-- If no long bracket is open, the added lines are code, and each of them is an `end`. -/
theorem finalState_close {blocks : BlockAnalysis} (missing : 0 < blocks.missing)
    {text : List Char} (closed : (readText text).carry = none) :
    (readText (close blocks text)).carry = none ∧
      (readText (close blocks text)).brackets = (readText text).brackets ∧
      ∃ positions : List Position, positions.length = blocks.missing.toNat ∧
        finalState (close blocks text) =
          readKeywords (finalState text) (positions.map fun position => (.blockEnd, position)) := by
  obtain ⟨line, read⟩ := readText_close missing text
  rw [closed, readLines_ends] at read
  refine ⟨by rw [read]; rfl, by rw [read]; exact List.append_nil _, ?_⟩
  refine ⟨(List.range' line blocks.missing.toNat).map fun line => ⟨line, 1⟩, by simp, ?_⟩
  rw [finalState, read, Reading.followedBy, readKeywords_append]
  rfl

/-- A long bracket that is open at the end of a text takes the added lines in. -/
theorem carry_close {blocks : BlockAnalysis} (missing : 0 < blocks.missing) {text : List Char}
    {bracket : OpenBracket} (inside : (readText text).carry = some bracket) :
    (readText (close blocks text)).carry = some bracket := by
  obtain ⟨line, read⟩ := readText_close missing text
  rw [read, inside, readLines_ends_inside]
  rfl

/-- The repaired text has no errors exactly if nothing but open blocks was wrong with the text
and there are as many of them as `end` are added. -/
theorem errors_close_eq_nil_iff (rules : Option Lint.Rules) {blocks : BlockAnalysis}
    (missing : 0 < blocks.missing) (text : List Char) :
    (Analysis.ofText rules (close blocks text)).errors = [] ↔
      (readText text).carry = none ∧ (finalState text).findings = [] ∧
        (finalState text).stack.length = blocks.missing.toNat ∧
        (Analysis.ofText rules text).brackets.findings = [] := by
  rw [Analysis.errors_ofText_eq_nil_iff, Analysis.blocks_ofText, Analysis.brackets_ofText,
    Analysis.brackets_ofText, findings_ofState_eq_nil_iff]
  cases carry : (readText text).carry with
  | some bracket => simp [carry_close missing carry]
  | none =>
      obtain ⟨closed, same, positions, counted, state⟩ := finalState_close missing carry
      rw [closed, same, state, readKeywords_ends, counted]
      simp only [List.append_eq_nil_iff, List.reverse_eq_nil_iff, List.map_eq_nil_iff,
        List.drop_eq_nil_iff, counted, true_and]
      constructor
      · rintro ⟨⟨⟨enough, clean⟩, all⟩, balanced⟩
        exact ⟨clean, le_antisymm all enough, balanced⟩
      · rintro ⟨clean, equal, balanced⟩
        exact ⟨⟨⟨equal.ge, clean⟩, equal.le⟩, balanced⟩

/-! ## The reach of the repair -/

/-- What the repair cannot mend by adding `end` to a text whose brackets are balanced. -/
def obstacles : List FindingKind :=
  [.unterminatedLongBracket, .extraCloser, .mismatchedUntil]

/-- The condition on the analysis of a text under which its repair is offered. -/
structure Reaches (analysis : Analysis) : Prop where
  missing_pos : 0 < analysis.blocks.missing
  balanced : analysis.brackets.findings = []
  unobstructed : ∀ finding ∈ analysis.findings, finding.kind ∉ obstacles
  missing_eq : analysis.blocks.missing = analysis.blocks.unclosed.length

theorem severity_of_mem_obstacles : ∀ kind ∈ obstacles, kind.severity = .error := by
  decide

theorem not_obstacle_of_isError {finding : Finding} (harmless : finding.isError = false) :
    finding.kind ∉ obstacles := by
  intro found
  rw [Finding.isError_of_severity (severity_of_mem_obstacles _ found)] at harmless
  cases harmless

theorem kind_escalate (lines : List Nat) (finding : Finding) :
    (Analysis.escalate lines finding).kind = finding.kind :=
  congrArg Cause.kind (Analysis.cause_escalate lines finding)

section Text

variable (rules : Option Lint.Rules) (text : List Char)

/-- A long bracket that is open at the end of a text is an obstacle. -/
theorem carry_eq_none_of_unobstructed
    (unobstructed : ∀ finding ∈ (Analysis.ofText rules text).findings, finding.kind ∉ obstacles) :
    (readText text).carry = none := by
  cases carry : (readText text).carry with
  | none => rfl
  | some bracket =>
      exfalso
      let report : Finding :=
        { cause := .openLongBracket bracket.level bracket.isComment, position := bracket.opened }
      have inScan : report ∈ (Scan.ofText text).findings := by
        rw [Scan.findings, Analysis.openBracket_ofText, carry]
        exact List.mem_append_right _ List.mem_cons_self
      have inRegions : Analysis.escalate
          (Analysis.touchedLines (Analysis.ofText rules text).brackets.findings) report ∈
            (Analysis.ofText rules text).findings := by
        simp only [Analysis.findings, Analysis.regions_ofText, List.mem_append]
        exact Or.inl (Or.inl (Or.inl (List.mem_map_of_mem inScan)))
      apply unobstructed _ inRegions
      rw [kind_escalate]
      exact List.mem_cons_self

/-- A closer that closes nothing is an obstacle. -/
theorem findings_eq_nil_of_unobstructed
    (unobstructed : ∀ finding ∈ (Analysis.ofText rules text).findings, finding.kind ∉ obstacles) :
    (finalState text).findings = [] := by
  rw [List.eq_nil_iff_forall_not_mem]
  intro finding found
  have inBlocks : finding ∈ (Analysis.ofText rules text).findings := by
    simp only [Analysis.findings, Analysis.blocks_ofText, BlockAnalysis.ofState, List.mem_append,
      List.mem_reverse]
    exact Or.inl (Or.inl (Or.inr (Or.inl found)))
  apply unobstructed finding inBlocks
  rcases readKeywords_findings (by simp) (readText text).keywords finding found with kind | kind
  · rw [kind]
    decide
  · rw [kind]
    decide

/-- There is no other obstacle in a text with balanced brackets. -/
theorem unobstructed_of_eq (closed : (readText text).carry = none)
    (clean : (finalState text).findings = [])
    (balanced : (Analysis.ofText rules text).brackets.findings = []) :
    ∀ finding ∈ (Analysis.ofText rules text).findings, finding.kind ∉ obstacles := by
  intro finding found
  simp only [Analysis.findings, balanced, List.append_nil, List.mem_append] at found
  rcases found with (region | block) | advice
  · rw [Analysis.regions_ofText] at region
    obtain ⟨report, inScan, rfl⟩ := List.mem_map.1 region
    have harmless := (Scan.filter_isError_findings (Scan.ofText text)).2
      ((Analysis.openBracket_ofText text).trans closed)
    rw [kind_escalate]
    exact not_obstacle_of_isError (by simpa using List.filter_eq_nil_iff.1 harmless report inScan)
  · rw [Analysis.blocks_ofText, BlockAnalysis.ofState, clean] at block
    obtain ⟨unclosed, _, rfl⟩ := List.mem_map.1 block
    simp [Finding.kind, Cause.kind, obstacles]
  · exact not_obstacle_of_isError (Analysis.isError_advice rules text advice)

theorem unclosed_ofText :
    (Analysis.ofText rules text).blocks.unclosed = (finalState text).stack.reverse := by
  rw [Analysis.blocks_ofText]
  rfl

/-- The repaired text is free of errors exactly if the repair reaches the text. -/
theorem errors_close_eq_nil_iff_reaches
    (missing : 0 < (Analysis.ofText rules text).blocks.missing) :
    (Analysis.ofText rules (close (Analysis.ofText rules text).blocks text)).errors = [] ↔
      Reaches (Analysis.ofText rules text) := by
  have length : (Analysis.ofText rules text).blocks.unclosed.length =
      (finalState text).stack.length := by
    rw [unclosed_ofText, List.length_reverse]
  rw [errors_close_eq_nil_iff rules missing]
  constructor
  · rintro ⟨closed, clean, counted, balanced⟩
    exact ⟨missing, balanced, unobstructed_of_eq rules text closed clean balanced, by omega⟩
  · intro reaches
    have counted := reaches.missing_eq
    exact ⟨carry_eq_none_of_unobstructed rules text reaches.unobstructed,
      findings_eq_nil_of_unobstructed rules text reaches.unobstructed, by omega, reaches.balanced⟩

/-- A text that the repair reaches has an open block, so it is not valid as it is. -/
theorem errors_ne_nil_of_reaches (reaches : Reaches (Analysis.ofText rules text)) :
    (Analysis.ofText rules text).errors ≠ [] := by
  intro none
  have clean := (Analysis.errors_ofText_eq_nil_iff rules text).1 none
  have positive := reaches.missing_pos
  rw [reaches.missing_eq, unclosed_ofText] at positive
  rw [Analysis.blocks_ofText, findings_ofState_eq_nil_iff] at clean
  simp [clean.2.1.2] at positive

/-- What is offered, and when. -/
theorem fixed_eq_some_iff (fixed : List Char) :
    (Report.ofText ⟨true, rules⟩ text).fixed = some fixed ↔
      Reaches (Analysis.ofText rules text) ∧
        close (Analysis.ofText rules text).blocks text = fixed := by
  simp only [Report.ofText, Report.repaired, applies, Bool.true_and, Bool.and_eq_true,
    Bool.not_eq_true', decide_eq_true_eq, List.isEmpty_eq_false_iff, List.isEmpty_iff,
    Option.ite_none_right_eq_some, Option.some.injEq]
  constructor
  · rintro ⟨⟨_, missing, _⟩, clean, equal⟩
    exact ⟨(errors_close_eq_nil_iff_reaches rules text missing).1 clean, equal⟩
  · rintro ⟨reaches, equal⟩
    exact ⟨⟨errors_ne_nil_of_reaches rules text reaches, reaches.missing_pos, reaches.balanced⟩,
      (errors_close_eq_nil_iff_reaches rules text reaches.missing_pos).2 reaches, equal⟩

/-- Where the repair reaches, the surplus of missing `end` is not negative. -/
theorem surplus_nonneg_of_reaches (reaches : Reaches (Analysis.ofText rules text)) :
    0 ≤ (finalState text).surplus := by
  have counted := reaches.missing_eq
  have needed := List.countP_le_length (p := OpenBlock.needsEnd) (l := (finalState text).stack)
  rw [unclosed_ofText, List.length_reverse, Analysis.blocks_ofText] at counted
  simp only [BlockAnalysis.missing, BlockAnalysis.ofState] at counted
  rw [BlockState.surplus]
  omega

/-- Where the repair reaches, no `repeat` is left open. -/
theorem kind_ne_repeatLoop_of_reaches (reaches : Reaches (Analysis.ofText rules text)) :
    ∀ block ∈ (Analysis.ofText rules text).blocks.unclosed, block.kind ≠ .repeatLoop := by
  have start : (finalState text).surplus ≤ 0 := surplus_readKeywords_le {} _
  have final := surplus_nonneg_of_reaches rules text reaches
  have counted := reaches.missing_eq
  rw [unclosed_ofText, List.length_reverse, Analysis.blocks_ofText] at counted
  simp only [BlockAnalysis.missing, BlockAnalysis.ofState] at counted
  rw [BlockState.surplus] at start final
  have all : (finalState text).stack.countP OpenBlock.needsEnd =
      (finalState text).stack.length := by
    omega
  intro block found
  rw [unclosed_ofText, List.mem_reverse] at found
  simpa [OpenBlock.needsEnd] using List.countP_eq_length.1 all block found

/-- Where the repair reaches, no `repeat` was closed by an `end`. -/
theorem end_closes_of_reaches (reaches : Reaches (Analysis.ofText rules text))
    {before after : List (Keyword × Position)} {position : Position}
    (sequence : keywords 1 (Scan.ofText text).code = before ++ (.blockEnd, position) :: after) :
    ∃ block rest, (readKeywords {} before).stack = block :: rest ∧ block.kind ≠ .repeatLoop := by
  have final := surplus_nonneg_of_reaches rules text reaches
  have same : keywords 1 (Scan.ofText text).code = (readText text).keywords :=
    (readLines_eq 1 none (Line.split text)).1
  rw [finalState, ← same, sequence] at final
  obtain ⟨block, rest, stack, needed⟩ := needsEnd_of_surplus_le final
  exact ⟨block, rest, stack, by simpa [OpenBlock.needsEnd] using needed⟩

/-- As many `end` are found in the repaired text as are expected. -/
theorem expected_eq_found_close (reaches : Reaches (Analysis.ofText rules text)) :
    (Analysis.ofText rules (close (Analysis.ofText rules text).blocks text)).blocks.expected =
      (Analysis.ofText rules (close (Analysis.ofText rules text).blocks text)).blocks.found := by
  have missing := reaches.missing_pos
  have closed := carry_eq_none_of_unobstructed rules text reaches.unobstructed
  obtain ⟨-, -, positions, counted, state⟩ := finalState_close missing closed
  rw [Analysis.blocks_ofText rules (close _ text), state, readKeywords_ends]
  rw [Analysis.blocks_ofText] at missing counted
  simp only [BlockAnalysis.ofState, BlockAnalysis.missing] at missing counted ⊢
  omega

end Text

/-- **Reach of the repair.** If repairs are allowed, one is offered exactly if `end` are
missing, the brackets are balanced, nothing is reported that an added `end` cannot mend, and
as many `end` are missing as blocks are open. Then no `repeat` is open or was closed by an
`end`. What is offered has, up to carriage returns, the lines of the text without the blank
ones at its end and then the missing `end`; it is valid, and its blocks call for just as many
`end` as it has. -/
theorem fixed_isSome_iff_reaches (rules : Option Lint.Rules) (text : List Char) :
    ((Report.ofText ⟨true, rules⟩ text).fixed.isSome ↔
      Reaches (Analysis.ofText rules text)) ∧
    (Reaches (Analysis.ofText rules text) →
      (∀ block ∈ (Analysis.ofText rules text).blocks.unclosed, block.kind ≠ .repeatLoop) ∧
      ∀ before position after,
        keywords 1 (Scan.ofText text).code = before ++ (.blockEnd, position) :: after →
        ∃ block rest, (readKeywords {} before).stack = block :: rest ∧
          block.kind ≠ .repeatLoop) ∧
    ∀ fixed, (Report.ofText ⟨true, rules⟩ text).fixed = some fixed →
      (Buffer.ofText fixed).lines.map Line.stripReturn =
          ((Buffer.ofText text).lines.map Line.stripReturn).rdropWhile (·.all Text.isBlank) ++
            List.replicate (Analysis.ofText rules text).blocks.missing.toNat "end".toList ∧
        (Report.ofText ⟨true, rules⟩ fixed).valid ∧
        (Report.ofText ⟨true, rules⟩ fixed).blocks.expected =
          (Report.ofText ⟨true, rules⟩ fixed).blocks.found := by
  refine ⟨?_, ?_, ?_⟩
  · rw [Option.isSome_iff_exists]
    constructor
    · rintro ⟨fixed, offered⟩
      exact ((fixed_eq_some_iff rules text fixed).1 offered).1
    · intro reaches
      exact ⟨_, (fixed_eq_some_iff rules text _).2 ⟨reaches, rfl⟩⟩
  · intro reaches
    refine ⟨kind_ne_repeatLoop_of_reaches rules text reaches, ?_⟩
    intro before position after sequence
    exact end_closes_of_reaches rules text reaches sequence
  · intro fixed offered
    obtain ⟨reaches, rfl⟩ := (fixed_eq_some_iff rules text fixed).1 offered
    have clean := (errors_close_eq_nil_iff_reaches rules text reaches.missing_pos).2 reaches
    refine ⟨map_stripReturn_lines_close reaches.missing_pos text, ?_,
      expected_eq_found_close rules text reaches⟩
    simp [Report.valid, Report.ofText, clean, Finding.sort]

/-- A conditional without its `end`, behind a closed `repeat`, in a text whose comment and
string hold the word too. -/
theorem fixed_isSome_iff_reaches_conditional :
    Reaches (Analysis.ofText none
        "repeat\r\nuntil x -- end\r\nif a then\r\n  f('end')\r\n \r\n".toList) ∧
      (Report.ofText ⟨true, none⟩
        "repeat\r\nuntil x -- end\r\nif a then\r\n  f('end')\r\nend\r\n".toList).valid := by
  have offered : (Report.ofText ⟨true, none⟩
      "repeat\r\nuntil x -- end\r\nif a then\r\n  f('end')\r\n \r\n".toList).fixed =
        some "repeat\r\nuntil x -- end\r\nif a then\r\n  f('end')\r\nend\r\n".toList := by
    decide +kernel
  refine ⟨(fixed_isSome_iff_reaches none _).1.1 ?_,
    ((fixed_isSome_iff_reaches none _).2.2 _ offered).2.1⟩
  rw [offered]
  rfl

end Repair

end EditGate

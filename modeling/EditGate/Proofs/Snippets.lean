import EditGate.Console.Report
import EditGate.Proofs.Places
import Mathlib

/-!
# Snippets

A finding counts the lines between line feeds, and a snippet counts the rows that a viewer
breaks a text into, which may be more, or one less where a line feed ends the text. A line that
holds a character still has a row of its number, so the rows around an error always have the
error among them.
-/

namespace EditGate

/-! ## Lines and rows -/

/-- A line feed ends the first line. -/
theorem Line.getElem?_split_newline (rest : List Char) (index : Nat) :
    (split ('\n' :: rest))[index + 1]? = (split rest)[index]? := by
  simp [split, pieces]

/-- Any other character leaves the lines behind the first as they are. -/
theorem Line.getElem?_split_cons {char : Char} (different : char ≠ '\n') (rest : List Char)
    (index : Nat) : (split (char :: rest))[index + 1]? = (split rest)[index + 1]? := by
  rw [split_eq_splitOn, split_eq_splitOn, List.splitOn_cons_eq_if_modifyHead]
  simp [different]

namespace Text

/-- A character that starts no new row does not end a line either. -/
theorem ne_newline_of_not_isRowBreak {char : Char} (inside : ¬ isRowBreak char = true) :
    char ≠ '\n' := by
  rintro rfl
  exact inside (by decide)

/-- A line that holds a character has a row of its number. -/
theorem index_lt_length_rows {text : List Char} {index : Nat} {chars : Line}
    (found : (Line.split text)[index]? = some chars) (nonempty : chars ≠ []) :
    index < (rows text).length := by
  fun_induction rows text generalizing index with
  | case1 =>
      rw [Line.split, pieces, List.getElem?_singleton, Option.ite_none_right_eq_some] at found
      exact absurd (Option.some.inj found.2).symm nonempty
  | case2 rest ih =>
      cases index with
      | zero => exact Nat.zero_lt_succ _
      | succ index =>
          rw [Line.getElem?_split_cons (by decide), Line.getElem?_split_newline] at found
          exact Nat.succ_lt_succ (ih found)
  | case3 char rest single breaks ih =>
      cases index with
      | zero => exact Nat.zero_lt_succ _
      | succ index =>
          by_cases newline : char = '\n'
          · subst newline
            rw [Line.getElem?_split_newline] at found
            exact Nat.succ_lt_succ (ih found)
          · -- Such a break starts a row within the line.
            rw [Line.getElem?_split_cons newline] at found
            exact Nat.lt_succ_of_lt (ih found)
  | case4 char rest single inside none ih =>
      cases index with
      | zero => exact Nat.zero_lt_succ _
      | succ index =>
          rw [Line.getElem?_split_cons (ne_newline_of_not_isRowBreak inside)] at found
          exact absurd (none ▸ ih found) (Nat.not_lt_zero _)
  | case5 char rest single inside row others some ih =>
      cases index with
      | zero => exact Nat.zero_lt_succ _
      | succ index =>
          rw [Line.getElem?_split_cons (ne_newline_of_not_isRowBreak inside)] at found
          rw [some] at ih
          exact ih found

end Text

/-! ## The rows around an error -/

namespace Console

/-- A finding that points at a character is on a line that has a row of its number. -/
theorem line_le_length_rows {text : List Char} {finding : Finding}
    (points : finding.PointsInto (Line.split text)) :
    finding.position.line ≤ (Text.rows text).length := by
  have lineBounds := points.line_bounds
  have columnBounds := points.column_bounds
  have inside : finding.position.line - 1 < (Line.split text).length := by
    omega
  rw [List.getD_eq_getElem _ _ inside] at columnBounds
  have nonempty : (Line.split text)[finding.position.line - 1] ≠ [] :=
    List.length_pos_iff.1 (columnBounds.1.trans columnBounds.2)
  have shown := Text.index_lt_length_rows (List.getElem?_eq_getElem inside) nonempty
  omega

/-- Every error of a report has its own panel. -/
theorem panel_mem_reportItems {report : Report} {finding : Finding}
    (member : finding ∈ report.errors) (name : String) :
    .panel (snippet report.candidate (rowCount report.candidate) finding.position.line) none ∈
      reportItems report name true := by
  refine List.mem_append_left _ (List.mem_append_left _ (List.mem_cons_of_mem _ ?_))
  exact List.mem_flatMap.2 ⟨finding, member, List.mem_cons_of_mem _ List.mem_cons_self⟩

/-- An error is shown with a window of rows that has its line in it. -/
theorem exists_window_of_error (policy : Policy) (text : List Char) (name : String)
    (finding : Finding) (reported : finding ∈ (Report.ofText policy text).errors) :
    ∃ first last,
      snippet text (rowCount text) finding.position.line =
          .snippet text first last finding.position.line ∧
        .panel (.snippet text first last finding.position.line) none ∈
          reportItems (Report.ofText policy text) name true ∧
        1 ≤ first ∧ first ≤ finding.position.line ∧ finding.position.line ≤ last ∧
        last ≤ max 1 (Text.rows text).length := by
  have points : finding.PointsInto (Line.split text) :=
    Analysis.pointsInto_of_mem_findings (Report.mem_errors_iff.1 reported).1
  have starts := points.line_bounds.1
  have ends := line_le_length_rows points
  refine ⟨_, _, rfl, panel_mem_reportItems reported name, le_max_left _ _, ?_, ?_, min_le_left _ _⟩
  · exact max_le starts (Nat.sub_le _ _)
  · exact le_min (ends.trans (le_max_right _ _)) (Nat.le_add_right _ _)

/-- The `end` is on the second line, but on the third row, since a vertical tab breaks the first
line in two. -/
theorem exists_window_of_error_tab :
    ({ cause := .extraEnd, position := ⟨2, 1⟩ } : Finding) ∈
        (Report.ofText ⟨false, none⟩ "a\x0bb\r\nend\n".toList).errors ∧
      ∃ first last,
        snippet "a\x0bb\r\nend\n".toList (rowCount "a\x0bb\r\nend\n".toList) 2 =
            .snippet "a\x0bb\r\nend\n".toList first last 2 ∧
          .panel (.snippet "a\x0bb\r\nend\n".toList first last 2) none ∈
            reportItems (Report.ofText ⟨false, none⟩ "a\x0bb\r\nend\n".toList) "a.lua" true ∧
          1 ≤ first ∧ first ≤ 2 ∧ 2 ≤ last ∧
          last ≤ max 1 (Text.rows "a\x0bb\r\nend\n".toList).length := by
  have reported : ({ cause := .extraEnd, position := ⟨2, 1⟩ } : Finding) ∈
      (Report.ofText ⟨false, none⟩ "a\x0bb\r\nend\n".toList).errors := by
    refine List.mem_mergeSort.2 ?_
    decide +kernel
  exact ⟨reported, exists_window_of_error ⟨false, none⟩ _ "a.lua" _ reported⟩

end Console

end EditGate

import EditGate.Text.Lines
import Mathlib

/-!
# Texts and their buffers

A text can be put together again from its buffer. The lines of a text are what the
separation of the text at its line feeds yields, so the general laws of separating
and joining lists apply to them.

A buffer that is written with either line ending has its own lines again, each with the
carriage return that the ending puts behind it.
-/

namespace EditGate

/-- The pieces of a text are those of the general separation of lists. -/
theorem pieces_eq_splitOn (separator : Char) (text : List Char) :
    pieces separator text = text.splitOn separator := by
  induction text with
  | nil => rfl
  | cons char rest ih =>
      rw [List.splitOn_cons_eq_if_modifyHead]
      by_cases same : char = separator
      · simp [pieces, same, ih]
      · cases split : rest.splitOn separator with
        | nil => exact absurd split (List.splitOn_ne_nil separator rest)
        | cons piece others => simp [pieces, same, ih, split]

/-- The lines of a text are what it is separated into at its line feeds. -/
theorem Line.split_eq_splitOn (text : List Char) : Line.split text = text.splitOn '\n' :=
  pieces_eq_splitOn '\n' text

theorem Line.split_ne_nil (text : List Char) : Line.split text ≠ [] := by
  rw [split_eq_splitOn]
  exact List.splitOn_ne_nil '\n' text

/-- Joining the lines of a text gives the text back. -/
theorem Line.intercalate_split (text : List Char) :
    ['\n'].intercalate (Line.split text) = text := by
  rw [split_eq_splitOn, List.intercalate_splitOn]

/-- The lines of a joined text are those of its parts. -/
theorem Line.split_join (first second : List Char) :
    split (first ++ '\n' :: second) = split first ++ split second := by
  simp only [split_eq_splitOn, List.splitOn_append_cons_self]

/-- No piece holds the separator. -/
theorem notMem_of_mem_pieces {separator : Char} {text piece : List Char}
    (found : piece ∈ pieces separator text) : separator ∉ piece := by
  induction text generalizing piece with
  | nil =>
      rw [pieces, List.mem_singleton] at found
      simp [found]
  | cons char rest ih =>
      rw [pieces] at found
      split at found
      · rcases List.mem_cons.1 found with rfl | later
        · exact List.not_mem_nil
        · exact ih later
      next different =>
        split at found
        · rw [List.mem_singleton] at found
          simpa [found] using Ne.symm different
        next first others split =>
          rw [split] at ih
          rcases List.mem_cons.1 found with rfl | later
          · rw [List.mem_cons, not_or]
            exact ⟨Ne.symm different, ih List.mem_cons_self⟩
          · exact ih (List.mem_cons_of_mem first later)

/-- No line holds a line feed. -/
theorem Line.newline_notMem_split {text : List Char} {line : Line} (found : line ∈ split text) :
    '\n' ∉ line :=
  notMem_of_mem_pieces found

/-- Separating joined lines gives the lines back. -/
theorem Line.split_intercalate {lines : List Line} (clean : ∀ line ∈ lines, '\n' ∉ line)
    (nonempty : lines ≠ []) : split (['\n'].intercalate lines) = lines := by
  rw [split_eq_splitOn]
  exact List.splitOn_intercalate '\n' clean nonempty

/-- The last of several joined lists stands behind the others and a separator. -/
theorem intercalate_append_singleton {α : Type} (separator last : List α) {lists : List (List α)}
    (nonempty : lists ≠ []) :
    separator.intercalate (lists ++ [last]) = separator.intercalate lists ++ separator ++ last := by
  induction lists with
  | nil => exact absurd rfl nonempty
  | cons first rest ih =>
      cases rest with
      | nil => simp
      | cons second others =>
          have tail := ih (List.cons_ne_nil second others)
          rw [List.cons_append, List.intercalate_cons_of_ne_nil (by simp), tail,
            List.intercalate_cons_cons]
          simp only [List.append_assoc]

/-- What a line ending puts behind a line, in front of the line feed. -/
def LineEnding.returns : LineEnding → List Char
  | lineFeed => []
  | returnLineFeed => ['\r']

theorem LineEnding.chars_eq (ending : LineEnding) : ending.chars = ending.returns ++ ['\n'] := by
  cases ending <;> rfl

/-- Joining with a long separator is joining with its last part, the first part being put
behind every list but the last. -/
theorem intercalate_append_separator {α : Type} (first second last : List α)
    (lists : List (List α)) :
    (first ++ second).intercalate (lists ++ [last]) =
      second.intercalate (lists.map (· ++ first) ++ [last]) := by
  induction lists with
  | nil => simp
  | cons list rest ih =>
      simp only [List.cons_append, List.map_cons]
      rw [List.intercalate_cons_of_ne_nil (by simp), List.intercalate_cons_of_ne_nil (by simp), ih]
      simp only [List.append_assoc]

namespace Buffer

/-- A text that is not empty is separated at its line feeds, and an empty last piece means
that the last line is ended. -/
theorem ofText_of_ne_nil {text : List Char} (nonempty : text ≠ []) :
    ofText text =
      if (Line.split text).getLast? = some [] then ⟨(Line.split text).dropLast, true⟩
      else ⟨Line.split text, false⟩ := by
  cases text with
  | nil => exact absurd rfl nonempty
  | cons char rest => rfl

/-- A buffer with lines is its joined lines, ended or not. -/
theorem toText_of_ne_nil (ending : LineEnding) {lines : List Line} (ended : Bool)
    (nonempty : lines ≠ []) :
    toText ending ⟨lines, ended⟩ =
      ending.chars.intercalate lines ++ if ended then ending.chars else [] := by
  cases lines with
  | nil => exact absurd rfl nonempty
  | cons first rest => rfl

/-- A text is put together again from its buffer. -/
theorem toText_ofText (text : List Char) : toText .lineFeed (ofText text) = text := by
  by_cases empty : text = []
  · subst empty
    rfl
  · have whole := Line.intercalate_split text
    rw [ofText_of_ne_nil empty]
    split
    next remainder =>
      obtain ⟨lines, equal⟩ := List.getLast?_eq_some_iff.1 remainder
      rw [equal] at whole ⊢
      by_cases none : lines = []
      · subst none
        exact absurd whole.symm (by simpa using empty)
      · rw [List.dropLast_concat, toText_of_ne_nil _ _ none]
        rw [intercalate_append_singleton _ _ none] at whole
        simpa [LineEnding.chars] using whole
    next =>
      rw [toText_of_ne_nil _ _ (Line.split_ne_nil text)]
      simpa [LineEnding.chars] using whole

/-- Beside the lines of its buffer a text has at most an empty remainder. -/
theorem split_eq_lines_append (text : List Char) :
    ∃ remainder, Line.split text = (ofText text).lines ++ remainder ∧
      ∀ line ∈ remainder, line = [] := by
  by_cases empty : text = []
  · subst empty
    exact ⟨[[]], rfl, by simp⟩
  · rw [ofText_of_ne_nil empty]
    split
    next remainder =>
      obtain ⟨lines, equal⟩ := List.getLast?_eq_some_iff.1 remainder
      rw [equal]
      exact ⟨[[]], by simp, by simp⟩
    next => exact ⟨[], by simp, by simp⟩

section Written

variable {ending : LineEnding} {lines : List Line} {last : Line} {ended : Bool}

/-- The lines of a text that a buffer is written as, its remainder included. -/
theorem split_toText (clean : ∀ line ∈ lines, '\n' ∉ line) (cleanLast : '\n' ∉ last) :
    Line.split (toText ending ⟨lines ++ [last], ended⟩) =
      lines.map (· ++ ending.returns) ++
        if ended then [last ++ ending.returns, []] else [last] := by
  have noReturn : '\n' ∉ ending.returns := by cases ending <;> simp [LineEnding.returns]
  have joined : toText ending ⟨lines ++ [last], ended⟩ = ['\n'].intercalate
      (lines.map (· ++ ending.returns) ++
        if ended then [last ++ ending.returns, []] else [last]) := by
    rw [toText_of_ne_nil _ _ (by simp)]
    cases ended with
    | false => simp [LineEnding.chars_eq, intercalate_append_separator]
    | true =>
        have nonempty : lines ++ [last] ≠ [] := by simp
        rw [if_pos rfl, ← List.append_nil (_ ++ ending.chars),
          ← intercalate_append_singleton ending.chars [] nonempty, LineEnding.chars_eq,
          intercalate_append_separator]
        simp
  rw [joined, Line.split_intercalate]
  · intro line found
    cases ended <;> simp at found <;> grind
  · cases ended <;> simp

/-- A buffer that is written and read again has its lines back, each with what the line
ending puts behind it. -/
theorem lines_ofText_toText (clean : ∀ line ∈ lines, '\n' ∉ line) (cleanLast : '\n' ∉ last)
    (nonempty : last ≠ []) :
    (ofText (toText ending ⟨lines ++ [last], ended⟩)).lines =
      lines.map (· ++ ending.returns) ++ [if ended then last ++ ending.returns else last] := by
  have written : toText ending ⟨lines ++ [last], ended⟩ ≠ [] := by
    intro empty
    have single := @split_toText ending lines last ended clean cleanLast
    rw [empty] at single
    cases ended <;> cases lines <;> simp_all [Line.split, pieces]
  rw [ofText_of_ne_nil written, split_toText clean cleanLast]
  cases ended with
  | false => simp [nonempty]
  | true => simp

end Written

end Buffer

end EditGate

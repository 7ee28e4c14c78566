import EditGate.Gate
import EditGate.Proofs.Buffer
import Mathlib

/-!
# Edits as splices of lines

An edit that fits a text makes a text of the lines before its range, the new lines and the lines
behind its range. Only the end of the text needs care: an empty last line that no line ending
follows cannot be told from no line.

An edit that does not fit is refused, and so is one without the new text that it needs. Nothing is
ever moved to where it would fit.
-/

namespace EditGate

/-! ## Carriage returns -/

namespace Line

/-- What is in a line without its carriage return is in the line. -/
theorem mem_of_mem_stripReturn {line : Line} {char : Char} (found : char ∈ line.stripReturn) :
    char ∈ line := by
  rw [stripReturn] at found
  split at found
  · exact List.mem_of_mem_dropLast found
  · exact found

end Line

/-! ## Buffers that are written and read again -/

namespace Buffer

/-- No line of a text holds a line feed. -/
theorem newline_notMem_lines {text : List Char} {line : Line} (found : line ∈ (ofText text).lines) :
    '\n' ∉ line := by
  obtain ⟨remainder, split, -⟩ := split_eq_lines_append text
  have inText : line ∈ Line.split text := by
    rw [split]
    exact List.mem_append_left remainder found
  exact Line.newline_notMem_split inText

variable {ending : LineEnding} {lines : List Line} {last : Line}

end Buffer

/-- Whole numbers are compared as such. -/
theorem Number.atMost_whole (left right : ℤ) :
    (Number.whole left).atMost (.whole right) = decide (left ≤ right) := by
  rw [Bool.eq_iff_iff]
  simp only [atMost, less, same, position?, Position.before, Nat.cast_one, mul_one,
    Bool.or_eq_true, Bool.and_eq_true, Bool.not_eq_true', decide_eq_true_iff,
    decide_eq_false_iff_not]
  omega

namespace Edit

/-! ## What an edit asks for -/

/-- Whether the last line of an edit is a number from its first line up to `count`. -/
def LastFits (edit : Edit) (count : ℕ) : Prop :=
  match edit.lastValue.number? with
  | some (.whole last) => edit.first ≤ last ∧ last ≤ count
  | some last => (Number.whole edit.first).atMost last ∧ last.atMost (.whole count)
  | none => False

instance (edit : Edit) (count : ℕ) : Decidable (edit.LastFits count) := by
  unfold LastFits
  split <;> infer_instance

/-- Whether an edit speaks of lines of a text of `count` lines. An insertion may also stand
behind the last one. -/
def Fits (edit : Edit) (count : ℕ) : Prop :=
  1 ≤ edit.first ∧ (edit.operation = .insert → edit.first ≤ count + 1) ∧
    (edit.operation ≠ .insert → edit.LastFits count)

instance (edit : Edit) (count : ℕ) : Decidable (edit.Fits count) :=
  inferInstanceAs (Decidable (_ ∧ (_ → _) ∧ (_ → _)))

/-- Whether the last line can bound what an edit takes out: it is a whole number, unless the edit
takes out nothing. -/
def EndsWhole (edit : Edit) : Prop :=
  edit.operation ≠ .insert → edit.lastValue.whole?.isSome

/-- The new text of an edit. A deletion needs none and has the empty one. -/
def newText? (edit : Edit) : Option (List Char) :=
  match edit.operation, edit.payload with
  | .delete, _ => some []
  | _, .str text => some text.toList
  | _, _ => none

/-- How many lines end with the range of an edit. The range of an insertion is empty. -/
def stop (edit : Edit) : ℕ :=
  if edit.operation = .insert then edit.start else edit.lastLine.toNat

/-- The text without a line feed at its end. -/
def withoutFinalFeed (text : List Char) : List Char :=
  if text.getLast? = some '\n' then text.dropLast else text

/-- The lines that an edit brings: those of its new text, where a line feed at the end ends the
last line, each without one carriage return at its end. A deletion brings none. -/
def broughtLines (edit : Edit) (added : List Char) : List Line :=
  if edit.operation = .delete then []
  else (Line.split (withoutFinalFeed added)).map Line.stripReturn

/-- The lines of a text as an edit takes them over: if the text has a carriage return before a
line feed, each without one at its end. -/
def keptLines (text : List Char) : List Line :=
  if LineEnding.ofText text = .returnLineFeed then (Buffer.ofText text).lines.map Line.stripReturn
  else (Buffer.ofText text).lines

/-- The lines before the range of an edit, the new lines, and the lines behind the range. -/
def splice (edit : Edit) (text added : List Char) : List Line :=
  (keptLines text).take edit.start ++ edit.broughtLines added ++ (keptLines text).drop edit.stop

/-- Whether the edited text ends its last line: the text does, or it is empty and the new text
does. -/
def EndsLine (text added : List Char) : Prop :=
  (Buffer.ofText text).ended = true ∨ text = [] ∧ added.getLast? = some '\n'

instance (text added : List Char) : Decidable (EndsLine text added) :=
  inferInstanceAs (Decidable (_ ∨ _))

/-! ## New lines -/

/-- A text has an empty last piece only if it is empty or ends with a line feed. -/
theorem getLast?_of_getLast?_split {text : List Char}
    (empty : (Line.split text).getLast? = some []) :
    text = [] ∨ text.getLast? = some '\n' := by
  obtain ⟨front, split⟩ := List.getLast?_eq_some_iff.1 empty
  have whole := Line.intercalate_split text
  rw [split] at whole
  by_cases none : front = []
  · left
    rw [none] at whole
    exact whole.symm
  · right
    rw [intercalate_append_singleton _ _ none, List.append_nil] at whole
    rw [← whole, List.getLast?_concat]

/-- The new lines are those of the text without its final line feed. -/
theorem newLines_eq (added : List Char) :
    newLines added = (Line.split (withoutFinalFeed added)).map Line.stripReturn := by
  rw [newLines, withoutFinalFeed]
  by_cases fed : added.getLast? = some '\n'
  · obtain ⟨front, rfl⟩ := List.getLast?_eq_some_iff.1 fed
    have several : 1 < (Line.split front ++ Line.split []).length := by
      have some := List.length_pos_of_ne_nil (Line.split_ne_nil front)
      rw [List.length_append]
      exact Nat.add_lt_add_right some 1
    rw [if_pos fed, List.dropLast_concat, Line.split_join, if_pos ⟨several, List.getLast?_concat⟩]
    exact congrArg _ (List.dropLast_concat ..)
  · rw [if_neg fed]
    by_cases nothing : added = []
    · subst nothing
      rfl
    · rw [if_neg]
      rintro ⟨-, empty⟩
      exact (getLast?_of_getLast?_split empty).elim nothing fed

/-! ## When an edit is refused -/

section Refusal

variable {edit : Edit} {count : ℕ} {text added : List Char}

theorem lastFits_iff : edit.LastFits count ↔ ∃ last, edit.lastValue.number? = some last ∧
    (Number.whole edit.first).atMost last ∧ last.atMost (.whole count) := by
  rw [LastFits]
  split <;> simp_all [Number.atMost_whole]

/-- What the comparison of lines accepts. -/
theorem rangeFits?_eq_some_true_iff : edit.rangeFits? count = some true ↔ edit.Fits count := by
  rw [rangeFits?, Fits, lastFits_iff]
  by_cases inserts : edit.operation = .insert
  · simp [inserts]
  · by_cases early : edit.first < 1
    · simp [inserts, early]
    · simp [inserts, early, not_lt.1 early]

/-- Only a last line that is no number cannot be compared. -/
theorem rangeFits?_ne_none (number : edit.operation ≠ .insert → edit.lastIsNumber = true) :
    edit.rangeFits? count ≠ none := by
  rw [rangeFits?]
  split
  · exact Option.some_ne_none _
  next covers =>
    split
    · exact Option.some_ne_none _
    · rw [Ne, Option.map_eq_none_iff, ← Option.isNone_iff_eq_none]
      simpa [lastIsNumber, Option.isSome_iff_ne_none] using number covers

/-- An edit that does not fit is refused, and what is named is its range if that can be compared
with the text. -/
theorem check_of_not_fits (unfit : ¬ edit.Fits count) :
    ∃ cause, edit.check count = .error cause ∧
      ((edit.operation ≠ .insert → edit.lastIsNumber = true) →
        cause = .outside edit.operation edit.first edit.lastValue count) := by
  rw [check]
  match compared : edit.rangeFits? count with
  | none => exact ⟨_, rfl, fun number => absurd compared (rangeFits?_ne_none number)⟩
  | some false => exact ⟨_, rfl, fun _ => rfl⟩
  | some true => exact absurd (rangeFits?_eq_some_true_iff.1 compared) unfit

/-- The last line of an edit that fits is a number, unless the edit inserts. -/
theorem Fits.lastIsNumber (fits : edit.Fits count) (covers : edit.operation ≠ .insert) :
    edit.lastIsNumber = true := by
  obtain ⟨last, number, -⟩ := lastFits_iff.1 (fits.2.2 covers)
  rw [Edit.lastIsNumber, number]
  rfl

/-- An edit whose range fits is told if its new text is missing. -/
theorem check_of_payload_eq_null (fits : edit.Fits count) (needed : edit.operation ≠ .delete)
    (missing : edit.payload = .null) :
    edit.check count = .error (.payloadMissing edit.operation) := by
  rw [check, rangeFits?_eq_some_true_iff.2 fits, missing]
  cases operation : edit.operation with
  | delete => exact absurd operation needed
  | insert | replace => rfl

/-- What the check of an edit accepts. Of the new text it only asks that there be one. -/
theorem check_eq_ok_iff : edit.check count = .ok () ↔
    edit.Fits count ∧ (edit.operation = .delete ∨ edit.payload ≠ .null) := by
  constructor
  · intro accepted
    by_cases fits : edit.Fits count
    · refine ⟨fits, or_iff_not_imp_left.2 fun needed missing => ?_⟩
      rw [check_of_payload_eq_null fits needed missing] at accepted
      cases accepted
    · obtain ⟨cause, refused, -⟩ := check_of_not_fits fits
      rw [refused] at accepted
      cases accepted
  · rintro ⟨fits, deletion | filled⟩
    · rw [check, rangeFits?_eq_some_true_iff.2 fits, deletion]
    · rw [check, rangeFits?_eq_some_true_iff.2 fits]
      cases payload : edit.payload with
      | null => exact absurd payload filled
      | _ => cases edit.operation <;> rfl

/-- A new text is more than the check asks for. -/
theorem check_of_newText? (fits : edit.Fits count) (given : edit.newText? = some added) :
    edit.check count = .ok () := by
  refine check_eq_ok_iff.2 ⟨fits, or_iff_not_imp_left.2 fun needed missing => ?_⟩
  cases operation : edit.operation <;> simp_all [newText?]

theorem newText_of_newText? (given : edit.newText? = some added) (empty : Bool) :
    edit.newText empty = .ok added := by
  rw [newText?] at given
  rw [newText]
  split at given <;> simp_all

theorem exists_newText_eq_error (missing : edit.newText? = none) (empty : Bool) :
    ∃ cause, edit.newText empty = .error cause := by
  rw [newText?] at missing
  rw [newText]
  split
  next isDelete =>
    rw [isDelete] at missing
    cases missing
  next text isText _ =>
    rw [isText] at missing
    split at missing
    · cases missing
    · cases missing
    next noText => exact absurd rfl (noText text)
  next =>
    split
    · exact ⟨_, rfl⟩
    · exact ⟨_, rfl⟩

end Refusal

/-! ## The text that an edit makes -/

/-- The ending that an edit puts behind lines. -/
def endingOf (text added : List Char) : LineEnding :=
  .ofText (if text.isEmpty then added else text)

/-- The lines of an empty text are none, whatever line ending its new text has. -/
theorem keptLines_eq (text added : List Char) :
    (if endingOf text added = .returnLineFeed
      then (Buffer.ofText text).lines.map Line.stripReturn else (Buffer.ofText text).lines) =
        keptLines text := by
  cases text with
  | nil => exact ite_self _
  | cons char rest => rfl

theorem ended_eq (text added : List Char) :
    ((Buffer.ofText text).ended || (text.isEmpty && added.getLast? == some '\n')) =
      decide (EndsLine text added) := by
  rw [Bool.eq_iff_iff, decide_eq_true_iff]
  simp [EndsLine]

section Made

variable {edit : Edit} {text added : List Char}

theorem rangeEnd_of_endsWhole (whole : edit.EndsWhole) : edit.rangeEnd = .ok edit.stop := by
  rw [rangeEnd, stop, lastLine]
  by_cases inserts : edit.operation = .insert
  · simp [inserts]
  · obtain ⟨line, last⟩ := Option.isSome_iff_exists.1 (whole inserts)
    cases operation : edit.operation <;> simp_all

theorem rangeEnd_of_not_endsWhole (broken : ¬ edit.EndsWhole) :
    edit.rangeEnd = .error .lastNotWhole := by
  obtain ⟨covers, last⟩ := Classical.not_imp.1 broken
  rw [Option.not_isSome_iff_eq_none] at last
  rw [rangeEnd, last]
  cases operation : edit.operation with
  | insert => exact absurd operation covers
  | replace | delete => rfl

/-- An edit that fits and has its new text makes a text of the spliced lines. -/
theorem apply_of_fits (fits : edit.Fits (Buffer.lineCount text))
    (given : edit.newText? = some added) (whole : edit.EndsWhole) :
    edit.apply text = .ok (Buffer.toText (endingOf text added)
      ⟨edit.splice text added, decide (EndsLine text added)⟩) := by
  have checked : edit.check (Buffer.ofText text).lines.length = .ok () :=
    check_of_newText? fits given
  rw [apply]
  simp only [checked, newText_of_newText? given, rangeEnd_of_endsWhole whole, bind, Except.bind]
  rw [← endingOf, keptLines_eq, ended_eq, newLines_eq, splice, broughtLines]

/-- A last line that is a number but no whole one passes the check and bounds nothing. -/
theorem apply_of_not_endsWhole (fits : edit.Fits (Buffer.lineCount text))
    (given : edit.newText? = some added) (broken : ¬ edit.EndsWhole) :
    edit.apply text = .error .lastNotWhole := by
  have checked : edit.check (Buffer.ofText text).lines.length = .ok () :=
    check_of_newText? fits given
  simp only [apply, checked, newText_of_newText? given, rangeEnd_of_not_endsWhole broken, bind,
    Except.bind]

/-- An edit that does not fit makes no text. -/
theorem apply_of_not_fits (unfit : ¬ edit.Fits (Buffer.lineCount text)) :
    ∃ cause, edit.apply text = .error cause ∧
      ((edit.operation ≠ .insert → edit.lastIsNumber = true) →
        cause = .outside edit.operation edit.first edit.lastValue (Buffer.lineCount text)) := by
  obtain ⟨cause, checked, named⟩ := check_of_not_fits unfit
  rw [Buffer.lineCount] at checked
  refine ⟨cause, ?_, named⟩
  simp only [apply, checked, bind, Except.bind]

/-- An edit without the new text that it needs makes no text. -/
theorem exists_apply_eq_error (missing : edit.newText? = none) :
    ∃ cause, edit.apply text = .error cause := by
  cases checked : edit.check (Buffer.ofText text).lines.length with
  | error cause => exact ⟨cause, by simp only [apply, checked, bind, Except.bind]⟩
  | ok done =>
      obtain ⟨cause, refused⟩ := exists_newText_eq_error missing text.isEmpty
      exact ⟨cause, by simp only [apply, checked, refused, bind, Except.bind]⟩

theorem fits_of_apply_eq_ok {candidate : List Char} (applied : edit.apply text = .ok candidate) :
    edit.Fits (Buffer.lineCount text) := by
  by_contra unfit
  obtain ⟨cause, refused, -⟩ := apply_of_not_fits unfit
  rw [refused] at applied
  cases applied

/-- What an edit that is not refused makes. -/
theorem exists_of_apply_eq_ok {candidate : List Char} (applied : edit.apply text = .ok candidate) :
    ∃ added, edit.newText? = some added ∧
      candidate = Buffer.toText (endingOf text added)
        ⟨edit.splice text added, decide (EndsLine text added)⟩ := by
  have fits := fits_of_apply_eq_ok applied
  cases given : edit.newText? with
  | none =>
      obtain ⟨cause, refused⟩ := @exists_apply_eq_error edit text given
      rw [refused] at applied
      cases applied
  | some added =>
      by_cases whole : edit.EndsWhole
      · rw [apply_of_fits fits given whole] at applied
        exact ⟨added, rfl, (Except.ok.inj applied).symm⟩
      · rw [apply_of_not_endsWhole fits given whole] at applied
        cases applied

/-- The spliced lines hold no line feed. -/
theorem newline_notMem_splice : ∀ line ∈ edit.splice text added, '\n' ∉ line := by
  have kept : ∀ line ∈ keptLines text, '\n' ∉ line := by
    intro line found inside
    rw [keptLines] at found
    split at found
    · obtain ⟨original, among, rfl⟩ := List.mem_map.1 found
      exact Buffer.newline_notMem_lines among (Line.mem_of_mem_stripReturn inside)
    · exact Buffer.newline_notMem_lines found inside
  have brought : ∀ line ∈ edit.broughtLines added, '\n' ∉ line := by
    intro line found inside
    rw [broughtLines] at found
    split at found
    · cases found
    · obtain ⟨original, among, rfl⟩ := List.mem_map.1 found
      exact Line.newline_notMem_split among (Line.mem_of_mem_stripReturn inside)
  rw [splice, List.forall_mem_append, List.forall_mem_append]
  exact ⟨⟨fun line found => kept line (List.mem_of_mem_take found), brought⟩,
    fun line found => kept line (List.mem_of_mem_drop found)⟩

end Made

namespace Sample

/-- Two lines, of which only the first is ended. -/
def text : List Char :=
  ['a', '\r', '\n', 'b']

/-- A line and an empty line in place of the second line. -/
def replacement : Edit :=
  ⟨.replace, 2, .null, .str "c\n\n"⟩

end Sample

end Edit

end EditGate

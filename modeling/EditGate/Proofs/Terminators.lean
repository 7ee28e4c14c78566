import EditGate.Proofs.Repair
import EditGate.Proofs.Splicing
import Mathlib

/-!
# Mixed line endings

A text mixes line endings if a carriage return stands before one of its line feeds and not before
another. Whether it does can be read off the lines that a line feed ends: some of them end with a
carriage return, and some do not.

A text that is written with carriage returns never mixes. One that is written with bare line feeds
does if some lines that it is made of bring a carriage return along: the last line of a text that
ends with one, or a new line of which only one of several carriage returns was taken off.
-/

namespace EditGate

/-! ## Lines that are ended -/

/-- Whether a carriage return stands before a line feed. -/
def HasReturnFeed (text : List Char) : Prop :=
  ['\r', '\n'] <:+: text

/-- Whether a line feed stands without a carriage return before it. -/
def HasBareFeed (text : List Char) : Prop :=
  ∃ before after, text = before ++ '\n' :: after ∧ before.getLast? ≠ some '\r'

/-- Whether a text has both kinds of line endings. -/
def MixesEndings (text : List Char) : Prop :=
  HasReturnFeed text ∧ HasBareFeed text

/-- Whether a line ends with a carriage return. -/
def Line.EndsInReturn (line : Line) : Prop :=
  line.getLast? = some '\r'

instance (line : Line) : Decidable line.EndsInReturn :=
  inferInstanceAs (Decidable (_ = _))

/-- The lines of a text that a line feed ends. -/
def Line.ended (text : List Char) : List Line :=
  (split text).dropLast

namespace Line

theorem split_injective {first second : List Char} (same : split first = split second) :
    first = second := by
  rw [← intercalate_split first, same, intercalate_split]

/-- A line that is ended is the last one of what stands before some line feed. -/
theorem mem_ended_iff {text : List Char} {line : Line} :
    line ∈ ended text ↔
      ∃ before after, text = before ++ '\n' :: after ∧ (split before).getLast? = some line := by
  constructor
  · intro found
    obtain ⟨front, middle, cut⟩ := List.append_of_mem found
    obtain ⟨rest, some, whole⟩ : ∃ rest, rest ≠ [] ∧ split text = (front ++ [line]) ++ rest := by
      refine ⟨middle ++ [(split text).getLast (split_ne_nil text)], by simp, ?_⟩
      rw [← List.append_assoc, List.append_assoc front, List.singleton_append, ← cut, ended,
        List.dropLast_append_getLast]
    have clean : ∀ other ∈ split text, '\n' ∉ other := fun other => newline_notMem_split
    rw [whole, List.forall_mem_append] at clean
    have before := split_intercalate clean.1 (by simp)
    refine ⟨['\n'].intercalate (front ++ [line]), ['\n'].intercalate rest, split_injective ?_, ?_⟩
    · rw [split_join, before, split_intercalate clean.2 some, whole]
    · rw [before, List.getLast?_concat]
  · rintro ⟨before, after, rfl, last⟩
    rw [ended, split_join, List.dropLast_append_of_ne_nil (split_ne_nil after)]
    exact List.mem_append_left _ (List.mem_of_getLast? last)

/-- Behind a last line stands a carriage return exactly if the line ends with one. -/
theorem getLast?_eq_return_iff {text : List Char} {line : Line}
    (last : (split text).getLast? = some line) : text.getLast? = some '\r' ↔ line.EndsInReturn := by
  obtain ⟨front, cut⟩ := List.getLast?_eq_some_iff.1 last
  have whole := intercalate_split text
  rw [cut] at whole
  by_cases none : front = []
  · rw [none, List.nil_append, List.intercalate_singleton] at whole
    rw [whole, EndsInReturn]
  · rw [intercalate_append_singleton _ _ none] at whole
    rw [← whole, EndsInReturn, List.getLast?_append]
    cases line with
    | nil => simp
    | cons char rest => simp [List.getLast?_cons]

theorem exists_getLast?_split (text : List Char) : ∃ line, (split text).getLast? = some line :=
  ⟨_, List.getLast?_eq_some_getLast (split_ne_nil text)⟩

end Line

/-- A carriage return stands before a line feed exactly if it ends a line. -/
theorem hasReturnFeed_iff {text : List Char} :
    HasReturnFeed text ↔ ∃ line ∈ Line.ended text, line.EndsInReturn := by
  constructor
  · rintro ⟨front, after, rfl⟩
    obtain ⟨line, last⟩ := Line.exists_getLast?_split (front ++ ['\r'])
    refine ⟨line, Line.mem_ended_iff.2 ⟨front ++ ['\r'], after, by simp, last⟩, ?_⟩
    exact (Line.getLast?_eq_return_iff last).1 List.getLast?_concat
  · rintro ⟨line, found, returned⟩
    obtain ⟨before, after, rfl, last⟩ := Line.mem_ended_iff.1 found
    obtain ⟨front, rfl⟩ :=
      List.getLast?_eq_some_iff.1 ((Line.getLast?_eq_return_iff last).2 returned)
    exact ⟨front, after, by simp⟩

theorem hasBareFeed_iff {text : List Char} :
    HasBareFeed text ↔ ∃ line ∈ Line.ended text, ¬ line.EndsInReturn := by
  constructor
  · rintro ⟨before, after, rfl, bare⟩
    obtain ⟨line, last⟩ := Line.exists_getLast?_split before
    exact ⟨line, Line.mem_ended_iff.2 ⟨before, after, rfl, last⟩,
      fun returned => bare ((Line.getLast?_eq_return_iff last).2 returned)⟩
  · rintro ⟨line, found, bare⟩
    obtain ⟨before, after, rfl, last⟩ := Line.mem_ended_iff.1 found
    exact ⟨before, after, rfl, fun returned => bare ((Line.getLast?_eq_return_iff last).1 returned)⟩

/-- A text mixes line endings exactly if only some of its ended lines end with a carriage
return. -/
theorem mixesEndings_iff {text : List Char} :
    MixesEndings text ↔ (∃ line ∈ Line.ended text, line.EndsInReturn) ∧
      ∃ line ∈ Line.ended text, ¬ line.EndsInReturn :=
  and_congr hasReturnFeed_iff hasBareFeed_iff

instance (text : List Char) : Decidable (MixesEndings text) :=
  decidable_of_iff _ mixesEndings_iff.symm

/-- The ending of a text is the longer one exactly if a carriage return stands before some line
feed. -/
theorem LineEnding.ofText_eq_returnLineFeed_iff {text : List Char} :
    ofText text = .returnLineFeed ↔ HasReturnFeed text := by
  fun_induction ofText text with
  | case1 rest => exact iff_of_true rfl ⟨[], rest, rfl⟩
  | case2 char rest other ih =>
      rw [ih, HasReturnFeed, HasReturnFeed, List.infix_cons_iff]
      refine ⟨Or.inr, Or.rec ?_ id⟩
      rintro ⟨after, cut⟩
      obtain ⟨rfl, rfl⟩ := List.cons.inj cut
      exact (other after rfl rfl).elim
  | case3 => exact iff_of_false (by simp) (by simp [HasReturnFeed])

/-! ## Written buffers -/

namespace Buffer

/-- The lines that are ended where a buffer is written. -/
def endedLines (buffer : Buffer) : List Line :=
  if buffer.ended then buffer.lines else buffer.lines.dropLast

variable {ending : LineEnding} {buffer : Buffer}

/-- A written buffer ends its lines with what the line ending puts behind them. -/
theorem ended_toText (clean : ∀ line ∈ buffer.lines, '\n' ∉ line) :
    Line.ended (toText ending buffer) = buffer.endedLines.map (· ++ ending.returns) := by
  obtain ⟨lines, ended⟩ := buffer
  rcases List.eq_nil_or_concat lines with rfl | ⟨front, last, rfl⟩
  · cases ended <;> rfl
  · rw [List.concat_eq_append] at clean ⊢
    rw [List.forall_mem_append, List.forall_mem_singleton] at clean
    rw [Line.ended, split_toText clean.1 clean.2]
    cases ended with
    | true => simp [endedLines, List.dropLast_append_of_ne_nil]
    | false => simp [endedLines]

/-- A written buffer mixes line endings exactly if it is written with bare line feeds and only some
of the lines that are ended end with a carriage return. -/
theorem mixesEndings_toText_iff (clean : ∀ line ∈ buffer.lines, '\n' ∉ line) :
    MixesEndings (toText ending buffer) ↔ ending = .lineFeed ∧
      (∃ line ∈ buffer.endedLines, line.EndsInReturn) ∧
        ∃ line ∈ buffer.endedLines, ¬ line.EndsInReturn := by
  rw [mixesEndings_iff, ended_toText clean]
  cases ending with
  | lineFeed => simp [LineEnding.returns]
  | returnLineFeed => simp [LineEnding.returns, Line.EndsInReturn]

end Buffer

/-- A line of a text that ends with a carriage return stands before a line feed, or the text ends
with it. -/
theorem Buffer.returns_of_mem_lines {text : List Char} {line : Line}
    (found : line ∈ (ofText text).lines) (returned : line.EndsInReturn) :
    HasReturnFeed text ∨ text.getLast? = some '\r' := by
  obtain ⟨remainder, split, -⟩ := split_eq_lines_append text
  have inText : line ∈ Line.split text := by
    rw [split]
    exact List.mem_append_left remainder found
  rw [← List.dropLast_append_getLast (Line.split_ne_nil text), List.mem_append,
    List.mem_singleton] at inText
  rcases inText with ended | last
  · exact Or.inl (hasReturnFeed_iff.2 ⟨line, ended, returned⟩)
  · refine Or.inr ((Line.getLast?_eq_return_iff ?_).2 returned)
    rw [last, List.getLast?_eq_some_getLast]

/-! ## Edits -/

namespace Edit

/-- The spliced lines that a line feed ends in the edited text. -/
def endedLines (edit : Edit) (text added : List Char) : List Line :=
  Buffer.endedLines ⟨edit.splice text added, decide (EndsLine text added)⟩

/-- Whether an edit takes over a carriage return that nothing takes off: one at the end of the
text, or one that is left at the end of a new line. -/
def TakesReturns (edit : Edit) (text added : List Char) : Prop :=
  text.getLast? = some '\r' ∨ ∃ line ∈ edit.broughtLines added, line.EndsInReturn

variable {edit : Edit} {text added : List Char}

theorem mem_splice_of_mem_endedLines {line : Line} (found : line ∈ edit.endedLines text added) :
    line ∈ edit.splice text added := by
  rw [endedLines, Buffer.endedLines] at found
  split at found
  · exact found
  · exact List.mem_of_mem_dropLast found

/-- Only what an edit takes over can end a spliced line with a carriage return. -/
theorem takesReturns_of_mem_splice {line : Line} (plain : ¬ HasReturnFeed text)
    (found : line ∈ edit.splice text added) (returned : line.EndsInReturn) :
    edit.TakesReturns text added := by
  have kept (line : Line) (among : line ∈ keptLines text) (returned : line.EndsInReturn) :
      edit.TakesReturns text added := by
    rw [keptLines, if_neg (mt LineEnding.ofText_eq_returnLineFeed_iff.1 plain)] at among
    exact Or.inl ((Buffer.returns_of_mem_lines among returned).resolve_left plain)
  rw [splice, List.mem_append, List.mem_append] at found
  rcases found with (before | brought) | behind
  · exact kept line (List.mem_of_mem_take before) returned
  · exact Or.inr ⟨line, brought, returned⟩
  · exact kept line (List.mem_of_mem_drop behind) returned

/-- When an edited text mixes line endings. -/
theorem mixesEndings_apply_iff {candidate : List Char} (given : edit.newText? = some added)
    (applied : edit.apply text = .ok candidate) :
    MixesEndings candidate ↔ ¬ HasReturnFeed (if text.isEmpty then added else text) ∧
      (∃ line ∈ edit.endedLines text added, line.EndsInReturn) ∧
        ∃ line ∈ edit.endedLines text added, ¬ line.EndsInReturn := by
  obtain ⟨other, same, rfl⟩ := exists_of_apply_eq_ok applied
  obtain rfl : added = other := Option.some.inj (given.symm.trans same)
  have bare : endingOf text added = .lineFeed ↔
      ¬ HasReturnFeed (if text.isEmpty then added else text) := by
    rw [← LineEnding.ofText_eq_returnLineFeed_iff, ← endingOf]
    cases endingOf text added <;> simp
  rw [Buffer.mixesEndings_toText_iff newline_notMem_splice, bare, endedLines]

end Edit

/-! ## The repair -/

namespace Repair

open Lua

/-- Whether the repair puts lines behind a carriage return that ends the text, and there is another
line to compare with. -/
def BuriesReturn (blocks : BlockAnalysis) (text : List Char) : Prop :=
  ¬ HasReturnFeed text ∧ text.getLast? = some '\r' ∧
    (∃ line, (Line.split text).getLast? = some line ∧ ¬ IsBlankLine line) ∧
    0 < blocks.missing ∧ (HasBareFeed text ∨ 1 < blocks.missing)

theorem not_endsInReturn_end : ¬ Line.EndsInReturn "end".toList := by
  decide

/-- A text that ends with a carriage return has an open last line. -/
theorem ofText_of_getLast? {text : List Char} (returned : text.getLast? = some '\r') :
    Buffer.ofText text = ⟨Line.split text, false⟩ := by
  have nonempty : text ≠ [] := by
    rintro rfl
    cases returned
  rw [Buffer.ofText_of_ne_nil nonempty, if_neg]
  intro empty
  exact absurd ((Line.getLast?_eq_return_iff empty).1 returned) (by decide)

/-- The lines that the repair keeps of a text whose last line is open. -/
theorem dropBlankEnd_concat (front : List Line) (last : Line) :
    dropBlankEnd (front ++ [last]) =
      if last.all Text.isBlank then dropBlankEnd front else front ++ [last] := by
  rw [dropBlankEnd_eq_rdropWhile, List.rdropWhile_concat]
  rfl

/-- The lines of a text with bare line feeds that the repair ends. -/
def endedLines (blocks : BlockAnalysis) (text : List Char) : List Line :=
  Buffer.endedLines ⟨dropBlankEnd (Buffer.ofText text).lines ++
    List.replicate blocks.missing.toNat "end".toList, (Buffer.ofText text).ended⟩

theorem mem_of_mem_dropBlankEnd {lines : List Line} {line : Line}
    (found : line ∈ dropBlankEnd lines) : line ∈ lines := by
  obtain ⟨dropped, whole, -⟩ := exists_dropBlankEnd_append lines
  rw [whole]
  exact List.mem_append_left dropped found

section Open

variable {blocks : BlockAnalysis} {text : List Char} {front : List Line} {last : Line}

theorem mixesEndings_close_iff_endedLines :
    MixesEndings (close blocks text) ↔ ¬ HasReturnFeed text ∧
      (∃ line ∈ endedLines blocks text, line.EndsInReturn) ∧
        ∃ line ∈ endedLines blocks text, ¬ line.EndsInReturn := by
  rw [close_eq_toText, Buffer.mixesEndings_toText_iff newline_notMem_closed,
    ← LineEnding.ofText_eq_returnLineFeed_iff]
  cases LineEnding.ofText text with
  | lineFeed =>
      have unchanged : bare .lineFeed = id := rfl
      rw [unchanged, List.map_id, endedLines]
      simp
  | returnLineFeed => simp

/-- If the last line of a text with bare line feeds ends with a carriage return, no other line
does. -/
theorem not_endsInReturn_of_mem_front (plain : ¬ HasReturnFeed text)
    (cut : Line.split text = front ++ [last]) : ∀ line ∈ front, ¬ line.EndsInReturn := by
  intro line found returned
  apply plain
  rw [hasReturnFeed_iff, Line.ended, cut, List.dropLast_concat]
  exact ⟨line, found, returned⟩

/-- The repair ends an open last line that is not blank by the lines that it adds. -/
theorem endedLines_of_filled (returned : text.getLast? = some '\r')
    (cut : Line.split text = front ++ [last]) (filled : ¬ IsBlankLine last) :
    endedLines blocks text =
      (front ++ [last] ++ List.replicate blocks.missing.toNat "end".toList).dropLast := by
  have kept : last.all Text.isBlank = false := by
    rw [Bool.eq_false_iff]
    intro blank
    exact filled (List.all_eq_true.1 blank)
  rw [endedLines, ofText_of_getLast? returned, cut, dropBlankEnd_concat, kept]
  rfl

/-- A line that the repair ends and that ends with a carriage return is the open last line of the
text. -/
theorem buries_of_mem_endedLines (plain : ¬ HasReturnFeed text)
    (cut : Line.split text = front ++ [last]) {line : Line}
    (found : line ∈ endedLines blocks text) (returned : line.EndsInReturn) :
    text.getLast? = some '\r' ∧ ¬ IsBlankLine last ∧ 0 < blocks.missing := by
  have kept : line ∈ dropBlankEnd (Buffer.ofText text).lines := by
    have among : line ∈ dropBlankEnd (Buffer.ofText text).lines ++
        List.replicate blocks.missing.toNat "end".toList := by
      rw [endedLines, Buffer.endedLines] at found
      split at found
      · exact found
      · exact List.mem_of_mem_dropLast found
    rcases List.mem_append.1 among with kept | added
    · exact kept
    · rw [List.eq_of_mem_replicate added] at returned
      exact absurd returned not_endsInReturn_end
  have textReturned : text.getLast? = some '\r' :=
    (Buffer.returns_of_mem_lines (mem_of_mem_dropBlankEnd kept) returned).resolve_left plain
  have bare := not_endsInReturn_of_mem_front plain cut
  have filled : ¬ IsBlankLine last := by
    intro blank
    rw [ofText_of_getLast? textReturned, cut, dropBlankEnd_concat,
      if_pos (List.all_eq_true.2 blank)] at kept
    exact bare line (mem_of_mem_dropBlankEnd kept) returned
  refine ⟨textReturned, filled, ?_⟩
  by_contra none
  rw [endedLines_of_filled textReturned cut filled, Int.toNat_of_nonpos (not_lt.1 none),
    List.replicate_zero, List.append_nil, List.dropLast_concat] at found
  exact bare line found returned

end Open

/-- The repair mixes line endings exactly if it buries a carriage return. -/
theorem mixesEndings_close_iff (blocks : BlockAnalysis) (text : List Char) :
    MixesEndings (close blocks text) ↔ BuriesReturn blocks text := by
  rw [mixesEndings_close_iff_endedLines, BuriesReturn]
  apply and_congr_right
  intro plain
  obtain ⟨last, isLast⟩ := Line.exists_getLast?_split text
  obtain ⟨front, cut⟩ := List.getLast?_eq_some_iff.1 isLast
  have others : HasBareFeed text ↔ front ≠ [] := by
    rw [hasBareFeed_iff, Line.ended, cut, List.dropLast_concat]
    constructor
    · rintro ⟨line, found, -⟩ rfl
      cases found
    · intro nonempty
      obtain ⟨line, found⟩ := List.exists_mem_of_ne_nil front nonempty
      exact ⟨line, found, not_endsInReturn_of_mem_front plain cut line found⟩
  -- once the last line is known to be buried, the lines that are ended can be listed
  have listed (returned : text.getLast? = some '\r') (filled : ¬ IsBlankLine last)
      (missing : 0 < blocks.missing) :
      endedLines blocks text =
        front ++ [last] ++ List.replicate (blocks.missing.toNat - 1) "end".toList := by
    obtain ⟨count, counted⟩ := exists_toNat_missing_eq missing
    rw [endedLines_of_filled returned cut filled, counted, List.replicate_succ',
      ← List.append_assoc, List.dropLast_concat, Nat.add_sub_cancel]
  constructor
  · rintro ⟨⟨line, found, ends⟩, other, among, bare⟩
    obtain ⟨returned, filled, missing⟩ := buries_of_mem_endedLines plain cut found ends
    refine ⟨returned, ⟨last, isLast, filled⟩, missing, ?_⟩
    rw [listed returned filled missing, List.mem_append, List.mem_append,
      List.mem_singleton] at among
    rcases among with (early | isOther) | added
    · exact Or.inl (others.2 (List.ne_nil_of_mem early))
    · rw [isOther] at bare
      exact absurd ((Line.getLast?_eq_return_iff isLast).1 returned) bare
    · have some := List.ne_nil_of_mem added
      rw [Ne, List.replicate_eq_nil_iff] at some
      exact Or.inr (by omega)
  · rintro ⟨returned, ⟨other, isOther, filled⟩, missing, several⟩
    obtain rfl : last = other := Option.some.inj (isLast.symm.trans isOther)
    rw [listed returned filled missing]
    refine ⟨⟨last, by simp, (Line.getLast?_eq_return_iff isLast).1 returned⟩, ?_⟩
    rcases several with feed | many
    · obtain ⟨line, found⟩ := List.exists_mem_of_ne_nil front (others.1 feed)
      exact ⟨line, by simp [found], not_endsInReturn_of_mem_front plain cut line found⟩
    · refine ⟨"end".toList, List.mem_append_right _ ?_, not_endsInReturn_end⟩
      rw [List.mem_replicate]
      exact ⟨by omega, rfl⟩

end Repair

/-! ## When line endings are mixed -/

/-- An edited text mixes line endings exactly if it is written with bare line feeds and only some
of the spliced lines that are ended end with a carriage return. That takes a carriage return that
the edit took over from the end of a text without any before a line feed, or from the new text. A
repaired text mixes line endings exactly if the repair buries a carriage return. -/
theorem mixing_account (text : List Char) :
    (∀ (edit : Edit) added candidate, edit.newText? = some added →
      edit.apply text = .ok candidate →
      (MixesEndings candidate ↔ ¬ HasReturnFeed (if text.isEmpty then added else text) ∧
        (∃ line ∈ edit.endedLines text added, line.EndsInReturn) ∧
          ∃ line ∈ edit.endedLines text added, ¬ line.EndsInReturn) ∧
      (MixesEndings candidate → ¬ HasReturnFeed text ∧ edit.TakesReturns text added)) ∧
    ∀ blocks, MixesEndings (Repair.close blocks text) ↔ Repair.BuriesReturn blocks text := by
  refine ⟨fun edit added candidate given applied => ?_,
    fun blocks => Repair.mixesEndings_close_iff blocks text⟩
  have condition := Edit.mixesEndings_apply_iff given applied
  refine ⟨condition, fun mixed => ?_⟩
  obtain ⟨bare, ⟨line, found, returned⟩, -⟩ := condition.1 mixed
  have plain : ¬ HasReturnFeed text := by
    cases text with
    | nil => simp [HasReturnFeed]
    | cons char rest => exact bare
  exact ⟨plain, Edit.takesReturns_of_mem_splice plain
    (Edit.mem_splice_of_mem_endedLines found) returned⟩

/-- New lines with bare line feeds get the longer ending of the text. -/
theorem mixing_account_replacement :
    Edit.Sample.replacement.newText? = some ['c', '\n', '\n'] ∧
      Edit.Sample.replacement.apply Edit.Sample.text = .ok ['a', '\r', '\n', 'c', '\r', '\n'] ∧
      ¬ MixesEndings ['a', '\r', '\n', 'c', '\r', '\n'] := by
  have given : Edit.Sample.replacement.newText? = some ['c', '\n', '\n'] := rfl
  have applied : Edit.Sample.replacement.apply Edit.Sample.text =
      .ok ['a', '\r', '\n', 'c', '\r', '\n'] := rfl
  refine ⟨given, applied, fun mixed => ?_⟩
  have account := (mixing_account Edit.Sample.text).1 _ _ _ given applied
  exact (account.2 mixed).1 ⟨['a'], ['b'], rfl⟩

namespace Edit.Sample

/-- Two lines, of which the first has a carriage return too many. -/
def insertion : Edit :=
  ⟨.insert, 1, .null, .str "x\r\r\ny"⟩

/-- Two blocks that are left open, the last line with a carriage return at its end. -/
def unclosed : List Char :=
  ['d', 'o', '\n', 'd', 'o', '\r']

end Edit.Sample

/-- Neither text mixes line endings, but the first one does after an edit and the second one after
its repair. -/
theorem mixed_by_edit_and_repair :
    ¬ MixesEndings ['a', '\n'] ∧
      Edit.Sample.insertion.apply ['a', '\n'] =
        .ok ['x', '\r', '\n', 'y', '\n', 'a', '\n'] ∧
      MixesEndings ['x', '\r', '\n', 'y', '\n', 'a', '\n'] ∧
      ¬ MixesEndings Edit.Sample.unclosed ∧
      MixesEndings (Repair.close (.ofCode (Lua.Scan.ofText Edit.Sample.unclosed).code)
        Edit.Sample.unclosed) := by
  refine ⟨by decide, rfl, by decide, by decide, ?_⟩
  decide +kernel

end EditGate

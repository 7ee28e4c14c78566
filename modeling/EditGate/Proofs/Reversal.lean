import EditGate.Diff.Reverse
import EditGate.Proofs.Buffer
import EditGate.Proofs.LongestRun
import Mathlib

/-!
# Replaying reverse differences

A recipe names lines in three ways: changed and deleted lines by their places in the later
text, added lines by their places in the earlier one. Replaying it goes through two
intermediate sequences of lines, one after the changes and one after the deletions. Each
part of the script contributes a stretch of its own to both of them.
-/

namespace EditGate.Diff

variable {α β : Type}

/-! ## Scripts tile both sequences -/

theorem Segment.flatMap_old_join (segment : Segment α) (parts : List (Segment α)) :
    (segment.join parts).flatMap Segment.old = segment.old ++ parts.flatMap Segment.old := by
  fun_cases Segment.join segment parts <;> simp [Segment.old]

theorem Segment.flatMap_new_join (segment : Segment α) (parts : List (Segment α)) :
    (segment.join parts).flatMap Segment.new = segment.new ++ parts.flatMap Segment.new := by
  fun_cases Segment.join segment parts <;> simp [Segment.new]

/-- The parts around longest runs make up both sequences. -/
theorem Aligned.flatMap_old_new {old new : List α} {parts : List (Segment α)}
    (aligned : Aligned old new parts) :
    parts.flatMap Segment.old = old ∧ parts.flatMap Segment.new = new := by
  induction aligned with
  | apart => simp [Segment.old, Segment.new]
  | @around old new before behind run longest _ _ left right =>
      obtain ⟨leftOld, leftNew⟩ := left
      obtain ⟨rightOld, rightNew⟩ := right
      simp only [List.flatMap_append, List.flatMap_cons, leftOld, leftNew, rightOld, rightNew]
      constructor
      · rw [← List.append_assoc]
        exact take_append_slice_append_drop old run.oldStart run.size
      · simp only [Segment.new, longest.fits.2.2.2]
        rw [← List.append_assoc]
        exact take_append_slice_append_drop new run.newStart run.size

theorem flatMap_foldr_join (parts : List (Segment α)) :
    (parts.foldr Segment.join []).flatMap Segment.old = parts.flatMap Segment.old ∧
      (parts.foldr Segment.join []).flatMap Segment.new = parts.flatMap Segment.new := by
  induction parts with
  | nil => exact ⟨rfl, rfl⟩
  | cons segment rest ih =>
      simp only [List.foldr_cons, List.flatMap_cons, Segment.flatMap_old_join,
        Segment.flatMap_new_join, ih, and_self]

/-- What a part makes of its later lines when the changes are written. -/
def Segment.changed : Segment α → List α
  | keep lines => lines
  | change old new =>
      new.take (min old.length new.length) ++ old.drop (min old.length new.length)

/-- What a part makes of its later lines when its deletions are carried out too. -/
def Segment.kept : Segment α → List α
  | keep lines => lines
  | change old new => new.take (min old.length new.length)

/-- The same part of a script for lines of another type. -/
def Segment.map (convert : α → β) : Segment α → Segment β
  | keep lines => .keep (lines.map convert)
  | change old new => .change (old.map convert) (new.map convert)

@[simp] theorem Segment.old_map (convert : α → β) (segment : Segment α) :
    (segment.map convert).old = segment.old.map convert := by
  cases segment <;> rfl

@[simp] theorem Segment.new_map (convert : α → β) (segment : Segment α) :
    (segment.map convert).new = segment.new.map convert := by
  cases segment <;> rfl

theorem Segment.length_changed (segment : Segment α) :
    segment.changed.length = segment.old.length := by
  cases segment with
  | keep lines => rfl
  | change old new =>
      simp only [changed, Segment.old, List.length_append, List.length_take, List.length_drop]
      omega

namespace Recipe

/-! ## Changes -/

theorem setLines?_append (lines : List α) (first second : Assoc Int α) :
    setLines? lines (first ++ second) = (setLines? lines first).bind (setLines? · second) := by
  induction first generalizing lines with
  | nil => rfl
  | cons entry rest ih =>
      simp only [List.cons_append, setLines?]
      cases setLine? lines entry.1 entry.2 with
      | none => rfl
      | some next => exact ih next

@[simp] theorem placeOf_natCast (length index : Nat) : placeOf length index = index :=
  if_neg (Int.not_ofNat_neg index)

theorem setLine?_length (before behind : List α) (old new : α) :
    setLine? (before ++ old :: behind) before.length new = some (before ++ new :: behind) := by
  have inside : (before.length : Int) < (before ++ old :: behind).length := by
    rw [List.length_append, List.length_cons]
    omega
  rw [setLine?, placeOf_natCast, if_pos ⟨Int.natCast_nonneg _, inside⟩]
  simp

theorem setLines?_numbered (before behind : List α) {old new : List α}
    (same : old.length = new.length) :
    setLines? (before ++ old ++ behind) (numbered before.length new) =
      some (before ++ new ++ behind) := by
  induction new generalizing before old with
  | nil =>
      obtain rfl := List.length_eq_zero_iff.1 same
      rfl
  | cons line rest ih =>
      cases old with
      | nil => simp at same
      | cons first others =>
          have tail := ih (before ++ [line]) (by simpa using same)
          simp only [List.length_append, List.length_singleton, List.append_assoc,
            List.singleton_append] at tail
          simp only [numbered, setLines?, List.append_assoc, List.cons_append]
          rw [setLine?_length]
          exact tail

/-- Writing the changes of a script, in lines of which the first ones are passed over. -/
theorem setLines?_ofScript (before : List α) (newPlace : Nat) (parts : List (Segment α)) :
    setLines? (before ++ parts.flatMap Segment.old)
        (ofScript before.length newPlace parts).modifications =
      some (before ++ parts.flatMap Segment.changed) := by
  induction parts generalizing before newPlace with
  | nil => rfl
  | cons segment rest ih =>
      cases segment with
      | keep lines =>
          have tail := ih (before ++ lines) (newPlace + lines.length)
          simpa [ofScript, Segment.old, Segment.changed] using tail
      | change old new =>
          have paired : (old.take (min old.length new.length)).length =
              (new.take (min old.length new.length)).length := by simp
          have first := setLines?_numbered before
            (old.drop (min old.length new.length) ++ rest.flatMap Segment.old) paired
          rw [List.append_assoc before, ← List.append_assoc (old.take _), List.take_append_drop,
            List.append_assoc before] at first
          have tail := ih (before ++ Segment.changed (.change old new)) (newPlace + new.length)
          rw [List.length_append, Segment.length_changed] at tail
          simp only [Segment.changed, List.append_assoc] at tail
          simp only [ofScript, List.flatMap_cons, Segment.old, Segment.changed, List.append_assoc]
          rw [setLines?_append, first]
          exact tail

/-! ## Deletions -/

/-- Whether a place is among those of entries. -/
def hasPlace (entries : Assoc Int α) (place : Nat) : Bool :=
  entries.any fun entry => entry.1 == (place : Int)

theorem hasPlace_append (first second : Assoc Int α) (place : Nat) :
    hasPlace (first ++ second) place = (hasPlace first place || hasPlace second place) :=
  List.any_append

theorem hasPlace_numbered (start : Nat) (lines : List α) (place : Nat) :
    hasPlace (numbered start lines) place =
      decide (start ≤ place ∧ place < start + lines.length) := by
  induction lines generalizing start with
  | nil =>
      simp only [numbered, hasPlace, List.any_nil, List.length_nil]
      symm
      simp only [decide_eq_false_iff_not]
      omega
  | cons line rest ih =>
      have tail := ih (start + 1)
      simp only [hasPlace, numbered, List.any_cons] at tail ⊢
      rw [tail, Bool.eq_iff_iff]
      simp only [Bool.or_eq_true, beq_iff_eq, decide_eq_true_eq, List.length_cons]
      omega

/-- The deletions of a script lie within its later lines. -/
theorem hasPlace_deletions_of_lt {oldPlace newPlace place : Nat} (parts : List (Segment α))
    (before : place < oldPlace) :
    hasPlace (ofScript oldPlace newPlace parts).deletions place = false := by
  induction parts generalizing oldPlace newPlace with
  | nil => rfl
  | cons segment rest ih =>
      cases segment with
      | keep lines => exact ih (by omega)
      | change old new =>
          simp only [ofScript, hasPlace_append, hasPlace_numbered]
          rw [ih (by omega), Bool.or_false, decide_eq_false_iff_not]
          omega

theorem keepLines_append (deletions : Assoc Int α) (place : Nat) (first second : List α) :
    keepLines deletions place (first ++ second) =
      keepLines deletions place first ++ keepLines deletions (place + first.length) second := by
  induction first generalizing place with
  | nil => rfl
  | cons line rest ih =>
      simp only [List.cons_append, keepLines, ih, List.length_cons]
      rw [Nat.add_assoc, Nat.add_comm 1]
      split <;> rfl

theorem keepLines_eq_self {deletions : Assoc Int α} {place : Nat} {lines : List α}
    (untouched : ∀ other, place ≤ other → other < place + lines.length →
      hasPlace deletions other = false) :
    keepLines deletions place lines = lines := by
  induction lines generalizing place with
  | nil => rfl
  | cons line rest ih =>
      rw [List.length_cons] at untouched
      have first := untouched place (Nat.le_refl _) (by omega)
      simp only [hasPlace] at first
      simp only [keepLines, first, Bool.false_eq_true, ↓reduceIte]
      rw [ih fun other lower upper => untouched other (by omega) (by omega)]

theorem keepLines_eq_nil {deletions : Assoc Int α} {place : Nat} {lines : List α}
    (deleted : ∀ other, place ≤ other → other < place + lines.length →
      hasPlace deletions other = true) :
    keepLines deletions place lines = [] := by
  induction lines generalizing place with
  | nil => rfl
  | cons line rest ih =>
      rw [List.length_cons] at deleted
      have first := deleted place (Nat.le_refl _) (by omega)
      simp only [hasPlace] at first
      simp only [keepLines, first, ↓reduceIte]
      exact ih fun other lower upper => deleted other (by omega) (by omega)

/-- Carrying out the deletions of a script, beside others that come before its lines. -/
theorem keepLines_ofScript (earlier : Assoc Int α) (oldPlace newPlace : Nat)
    (parts : List (Segment α))
    (before : ∀ place, oldPlace ≤ place → hasPlace earlier place = false) :
    keepLines (earlier ++ (ofScript oldPlace newPlace parts).deletions) oldPlace
        (parts.flatMap Segment.changed) =
      parts.flatMap Segment.kept := by
  induction parts generalizing earlier oldPlace newPlace with
  | nil => rfl
  | cons segment rest ih =>
      rw [List.flatMap_cons, List.flatMap_cons, keepLines_append, Segment.length_changed]
      -- The deletions of this segment join the earlier ones, which is why those are general.
      cases segment with
      | keep lines =>
          have tail := ih earlier (oldPlace + lines.length) (newPlace + lines.length)
            fun place bound => before place (Nat.le_trans (Nat.le_add_right _ lines.length) bound)
          simp only [ofScript, Segment.old, Segment.changed, Segment.kept]
          rw [tail, keepLines_eq_self]
          intro other lower upper
          rw [hasPlace_append, before other lower, hasPlace_deletions_of_lt rest upper]
          rfl
      | change old new =>
          have none : ∀ place, oldPlace + old.length ≤ place →
              hasPlace (earlier ++ numbered (oldPlace + min old.length new.length)
                (old.drop (min old.length new.length))) place = false := by
            intro place bound
            rw [hasPlace_append, before place (by omega), hasPlace_numbered, List.length_drop,
              Bool.false_or, decide_eq_false_iff_not]
            omega
          have tail := ih _ _ (newPlace + new.length) none
          rw [List.append_assoc] at tail
          simp only [ofScript, Segment.old, Segment.changed, Segment.kept, keepLines_append]
          rw [tail, keepLines_eq_self, keepLines_eq_nil, List.append_nil]
          · intro other lower upper
            simp only [hasPlace_append, hasPlace_numbered, Bool.or_eq_true, decide_eq_true_eq]
            simp only [List.length_take, List.length_drop] at lower upper ⊢
            omega
          · intro other lower upper
            rw [List.length_take] at upper
            rw [hasPlace_append, hasPlace_append, before other lower, hasPlace_numbered,
              hasPlace_deletions_of_lt rest (by omega), Bool.false_or, Bool.or_false,
              decide_eq_false_iff_not]
            omega

/-! ## Additions -/

theorem mem_numbered {start : Nat} {lines : List α} {entry : Int × α}
    (member : entry ∈ numbered start lines) :
    (start : Int) ≤ entry.1 ∧ entry.1 < (start + lines.length : Nat) := by
  induction lines generalizing start with
  | nil => simp [numbered] at member
  | cons line rest ih =>
      rw [List.length_cons]
      rcases List.mem_cons.1 member with rfl | later
      · simp only
        omega
      · have := ih later
        omega

theorem pairwise_numbered (start : Nat) (lines : List α) :
    (numbered start lines).Pairwise fun first second => first.1 ≤ second.1 := by
  induction lines generalizing start with
  | nil => exact .nil
  | cons line rest ih =>
      refine List.pairwise_cons.2 ⟨fun entry member => ?_, ih (start + 1)⟩
      have := (mem_numbered member).1
      simp only
      omega

/-- The additions of a script lie within its earlier lines. -/
theorem mem_additions {oldPlace newPlace : Nat} {parts : List (Segment α)} {entry : Int × α}
    (member : entry ∈ (ofScript oldPlace newPlace parts).additions) :
    (newPlace : Int) ≤ entry.1 ∧
      entry.1 < (newPlace + (parts.flatMap Segment.new).length : Nat) := by
  induction parts generalizing oldPlace newPlace with
  | nil => simp [ofScript] at member
  | cons segment rest ih =>
      rw [List.flatMap_cons, List.length_append]
      cases segment with
      | keep lines =>
          have := ih member
          simp only [Segment.new]
          omega
      | change old new =>
          simp only [Segment.new]
          rcases List.mem_append.1 member with here | later
          · have := mem_numbered here
            rw [List.length_drop] at this
            omega
          · have := ih later
            omega

theorem pairwise_additions (oldPlace newPlace : Nat) (parts : List (Segment α)) :
    (ofScript oldPlace newPlace parts).additions.Pairwise
      fun first second => first.1 ≤ second.1 := by
  induction parts generalizing oldPlace newPlace with
  | nil => exact .nil
  | cons segment rest ih =>
      cases segment with
      | keep lines => exact ih _ _
      | change old new =>
          refine List.pairwise_append.2 ⟨pairwise_numbered _ _, ih _ _, ?_⟩
          intro first firstMember second secondMember
          have firstBound := (mem_numbered firstMember).2
          have secondBound := (mem_additions secondMember).1
          rw [List.length_drop] at firstBound
          omega

theorem inOrder_additions (oldPlace newPlace : Nat) (parts : List (Segment α)) :
    inOrder (ofScript oldPlace newPlace parts).additions =
      (ofScript oldPlace newPlace parts).additions := by
  apply List.mergeSort_of_pairwise
  simpa using pairwise_additions oldPlace newPlace parts

/-- No addition of a script is too far away to be counted. -/
theorem all_isCountable_additions (parts : List (Segment α)) :
    (ofScript 0 0 parts).additions.all (fun entry =>
      isCountable (parts.flatMap Segment.new).length entry.1) = true := by
  rw [List.all_eq_true]
  intro entry member
  have bounds := mem_additions member
  simp only [isCountable, Bool.or_eq_true, Bool.and_eq_true, decide_eq_true_eq]
  right
  omega

theorem insertLines_append (lines : List α) (first second : Assoc Int α) :
    insertLines lines (first ++ second) = insertLines (insertLines lines first) second :=
  List.foldl_append

theorem insertLines_numbered (before behind new : List α) :
    insertLines (before ++ behind) (numbered before.length new) = before ++ new ++ behind := by
  induction new generalizing before with
  | nil => simp [numbered, insertLines]
  | cons line rest ih =>
      have tail := ih (before ++ [line])
      have first : insertLine (before ++ behind) before.length line = before ++ line :: behind := by
        simp [insertLine]
      simp only [List.length_append, List.length_singleton, List.append_assoc,
        List.singleton_append] at tail
      simp only [numbered, insertLines, List.foldl_cons, first, List.append_assoc,
        List.cons_append]
      exact tail

/-- Carrying out the additions of a script, behind lines that are complete. -/
theorem insertLines_ofScript (before : List α) (oldPlace : Nat) (parts : List (Segment α)) :
    insertLines (before ++ parts.flatMap Segment.kept)
        (ofScript oldPlace before.length parts).additions =
      before ++ parts.flatMap Segment.new := by
  induction parts generalizing before oldPlace with
  | nil => rfl
  | cons segment rest ih =>
      cases segment with
      | keep lines =>
          have tail := ih (before ++ lines) (oldPlace + lines.length)
          simpa [ofScript, Segment.kept, Segment.new] using tail
      | change old new =>
          have tail := ih (before ++ new) (oldPlace + old.length)
          have first := insertLines_numbered (before ++ new.take (min old.length new.length))
            (rest.flatMap Segment.kept) (new.drop (min old.length new.length))
          rw [List.append_assoc before (new.take _) (new.drop _), List.take_append_drop,
            List.length_append, List.length_take, Nat.min_eq_left (Nat.min_le_right _ _)] at first
          rw [List.length_append] at tail
          simp only [ofScript, List.flatMap_cons, Segment.kept, Segment.new, insertLines_append]
          rw [← List.append_assoc, first, tail, List.append_assoc]

/-- Replaying the recipe of a script turns its later lines into its earlier ones. -/
theorem rebuild?_ofScript (parts : List (Segment α)) :
    (ofScript 0 0 parts).rebuild? (parts.flatMap Segment.old) =
      some (parts.flatMap Segment.new) := by
  have changes := setLines?_ofScript [] 0 parts
  have deletions := keepLines_ofScript [] 0 0 parts (fun _ _ => rfl)
  have additions := insertLines_ofScript [] 0 parts
  simp only [List.nil_append, List.length_nil] at changes deletions additions
  rw [rebuild?, changes, Option.map_some, deletions, inOrder_additions, additions]

/-! ## Lines as data -/

theorem numbered_map (convert : α → β) (start : Nat) (lines : List α) :
    (numbered start lines).map (fun entry => (entry.1, convert entry.2)) =
      numbered start (lines.map convert) := by
  induction lines generalizing start with
  | nil => rfl
  | cons line rest ih => simp [numbered, ih]

/-- A recipe is read off a script whatever its lines are. -/
theorem map_ofScript (convert : α → β) (oldPlace newPlace : Nat) (parts : List (Segment α)) :
    (ofScript oldPlace newPlace parts).map convert =
      ofScript oldPlace newPlace (parts.map (Segment.map convert)) := by
  induction parts generalizing oldPlace newPlace with
  | nil => rfl
  | cons segment rest ih =>
      cases segment with
      | keep lines => simpa [ofScript, Segment.map] using ih _ _
      | change old new =>
          have tail := ih (oldPlace + old.length) (newPlace + new.length)
          simp only [Recipe.map] at tail
          simp only [ofScript, Recipe.map, List.map_cons, Segment.map, List.length_map,
            ← List.map_drop, ← List.map_take, ← numbered_map, ← tail, List.map_append]

theorem mapM_lineOf?_lineValue (lines : List Line) :
    (lines.map lineValue).mapM lineOf? = some lines := by
  induction lines with
  | nil => rfl
  | cons line rest ih => simp [lineValue, lineOf?, ih]

/-- Replaying a recipe of two sequences of lines as data. -/
theorem rebuild?_map_ofScript (convert : α → β) (parts : List (Segment α)) :
    ((ofScript 0 0 parts).map convert).rebuild? ((parts.flatMap Segment.old).map convert) =
      some ((parts.flatMap Segment.new).map convert) := by
  have rebuilt := rebuild?_ofScript (parts.map (Segment.map convert))
  rw [← map_ofScript, List.flatMap_map, List.flatMap_map] at rebuilt
  simpa [List.map_flatMap] using rebuilt

/-- A recipe whose script has the lines of two texts turns the later one into the earlier. -/
theorem restore_ofScript {before after : List Char} {parts : List (Segment Line)}
    (old : parts.flatMap Segment.old = (Buffer.ofText after).lines)
    (new : parts.flatMap Segment.new = (Buffer.ofText before).lines) :
    ({ ofScript 0 0 parts with endsLine := (Buffer.ofText before).ended }.map lineValue).restore
        after = .ok before := by
  have rebuilt : ({ ofScript 0 0 parts with
        endsLine := (Buffer.ofText before).ended }.map lineValue).rebuild?
      ((Buffer.ofText after).lines.map lineValue) =
        some ((Buffer.ofText before).lines.map lineValue) := by
    rw [← old, ← new]
    exact rebuild?_map_ofScript lineValue parts
  have countable := all_isCountable_additions (parts.map (Segment.map lineValue))
  rw [← map_ofScript, List.flatMap_map] at countable
  have lines : (parts.flatMap fun part => (part.map lineValue).new) =
      (Buffer.ofText before).lines.map lineValue := by
    rw [← new, List.map_flatMap]
    simp only [Segment.new_map]
  rw [lines] at countable
  have notTooFar : ¬ (!((ofScript 0 0 parts).map lineValue).additions.all fun entry =>
      isCountable ((Buffer.ofText before).lines.map lineValue).length entry.1) = true := by
    rw [countable]
    decide
  rw [restore, rebuilt]
  simp only
  rw [mapM_lineOf?_lineValue]
  exact (if_neg notTooFar).trans (congrArg Except.ok (Buffer.toText_ofText before))

/-- The recipe of two texts is read off the parts of their lines around longest runs. -/
theorem ofTexts_eq_ofScript (before after : List Char) :
    ∃ parts, Aligned (Buffer.ofText after).lines (Buffer.ofText before).lines parts ∧
      ofTexts before after =
        { ofScript 0 0 (parts.foldr Segment.join []) with
          endsLine := (Buffer.ofText before).ended } := by
  obtain ⟨parts, aligned, tidied⟩ :=
    script_none (Buffer.ofText after).lines (Buffer.ofText before).lines
  exact ⟨parts, aligned, by rw [ofTexts, ofLines, tidied]⟩

/-- Without a common line, all lines are changed. -/
theorem ofTexts_of_disjoint {before after : List Char}
    (disjoint : ∀ line ∈ (Buffer.ofText after).lines, line ∉ (Buffer.ofText before).lines) :
    ofTexts before after =
      { ofScript 0 0 ([.change (Buffer.ofText after).lines (Buffer.ofText before).lines].foldr
          Segment.join []) with
        endsLine := (Buffer.ofText before).ended } := by
  obtain ⟨parts, aligned, recipe⟩ := ofTexts_eq_ofScript before after
  have apart : ∀ run : Run,
      ¬ run.Fits (Buffer.ofText after).lines (Buffer.ofText before).lines := by
    rintro run ⟨positive, oldBound, newBound, equal⟩
    have inside : run.oldStart < (Buffer.ofText after).lines.length := by omega
    have common : (Buffer.ofText after).lines[run.oldStart] ∈
        slice (Buffer.ofText after).lines run.oldStart run.size := by
      rw [slice, List.mem_take_iff_getElem]
      exact ⟨0, by simp; omega, by simp⟩
    refine disjoint _ (List.getElem_mem inside) ?_
    rw [equal, slice] at common
    exact List.mem_of_mem_drop (List.mem_of_mem_take common)
  rw [recipe, aligned.unique (.apart apart)]

/-- Applying the recipe of two texts to the later one gives back the earlier one. -/
theorem restore_ofTexts (before after : List Char) :
    ((ofTexts before after).map lineValue).restore after = .ok before := by
  obtain ⟨parts, aligned, recipe⟩ := ofTexts_eq_ofScript before after
  obtain ⟨old, new⟩ := aligned.flatMap_old_new
  obtain ⟨tidiedOld, tidiedNew⟩ := flatMap_foldr_join parts
  rw [recipe]
  exact restore_ofScript (tidiedOld.trans old) (tidiedNew.trans new)

/-- The recipe of two texts is read off the only list of parts of their lines around longest
runs, and applied to the later text it gives back the earlier one. -/
theorem ofTexts_correct (before after : List Char) :
    (∃ parts, (∀ other, Aligned (Buffer.ofText after).lines (Buffer.ofText before).lines other ↔
        other = parts) ∧
      ofTexts before after =
        { ofScript 0 0 (parts.foldr Segment.join []) with
          endsLine := (Buffer.ofText before).ended }) ∧
    ((ofTexts before after).map lineValue).restore after = .ok before := by
  obtain ⟨parts, aligned, recipe⟩ := ofTexts_eq_ofScript before after
  refine ⟨⟨parts, fun other => ⟨fun also => also.unique aligned, ?_⟩, recipe⟩,
    restore_ofTexts before after⟩
  rintro rfl
  exact aligned

end Recipe

end EditGate.Diff

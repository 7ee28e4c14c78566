import EditGate.Lua.Declaration
import Mathlib

/-!
# Cursors stay on their line

The characters before a cursor and those after it make its line, and its column counts the
characters before it. Every recogniser keeps this, so that the names that a search along the line
finds stand where they are said to stand.
-/

namespace EditGate

/-! ## Characters at a column -/

/-- Whether a line whose columns are counted from `start` has characters at a column. There is at
least one character, even if none is asked for. -/
def Line.Stands (start : Nat) (chars : Line) (column : Nat) (mark : List Char) : Prop :=
  ∃ before after, chars = before ++ after ∧ column = start + before.length ∧ after ≠ [] ∧
    mark <+: after

namespace Line.Stands

variable {start column : Nat} {chars : Line} {mark : List Char}

theorem here (nonempty : chars ≠ []) (stands : mark <+: chars) :
    Line.Stands start chars start mark :=
  ⟨[], chars, rfl, rfl, nonempty, stands⟩

theorem behind (front : List Char) (stands : Line.Stands (start + front.length) chars column mark) :
    Line.Stands start (front ++ chars) column mark := by
  obtain ⟨before, after, rfl, rfl, nonempty, stands⟩ := stands
  refine ⟨front ++ before, after, (List.append_assoc _ _ _).symm, ?_, nonempty, stands⟩
  rw [List.length_append, Nat.add_assoc]

theorem bounds (stands : Line.Stands start chars column mark) :
    start ≤ column ∧ column < start + chars.length := by
  obtain ⟨before, after, rfl, rfl, nonempty, _⟩ := stands
  have := List.length_pos_of_ne_nil nonempty
  rw [List.length_append]
  omega

theorem mono {shorter : List Char} (stands : Line.Stands start chars column mark)
    (within : shorter <+: mark) : Line.Stands start chars column shorter := by
  obtain ⟨before, after, joined, counted, nonempty, stands⟩ := stands
  exact ⟨before, after, joined, counted, nonempty, within.trans stands⟩

end Line.Stands

namespace Lua

/-! ## Cursors -/

/-- Whether a cursor is at a place of a line and counts its columns rightly. -/
structure Cursor.On (line : Line) (cursor : Cursor) : Prop where
  joined : cursor.before.reverse ++ cursor.rest = line
  column : cursor.column = 1 + cursor.before.length

/-- Whether a line has a name where the name is said to be. -/
structure NameAt.On (line : Line) (found : NameAt) : Prop where
  stands : line.Stands 1 found.column found.name
  isWord : ∀ char ∈ found.name, Text.isWord char

namespace Cursor

theorem prefix_of_chars? {cursor next : Cursor} {expected : List Char}
    (moved : cursor.chars? expected = some next) : expected <+: cursor.rest := by
  rw [chars?] at moved
  split at moved
  next ahead => exact List.isPrefixOf_iff_prefix.1 ahead
  · cases moved

theorem on_start (line : Line) : (start line).On line :=
  ⟨rfl, rfl⟩

namespace On

variable {line : Line} {cursor next : Cursor}

theorem stands (on : cursor.On line) (more : cursor.rest ≠ []) {mark : List Char}
    (stands : mark <+: cursor.rest) : line.Stands 1 cursor.column mark :=
  ⟨cursor.before.reverse, cursor.rest, on.joined.symm, by rw [on.column, List.length_reverse], more,
    stands⟩

/-- A cursor that moves behind the characters in front of it stays on its line. -/
theorem move (on : cursor.On line) {taken rest : List Char} (ahead : cursor.rest = taken ++ rest) :
    Cursor.On line ⟨taken.reverse ++ cursor.before, rest, cursor.column + taken.length⟩ where
  joined := by simp [← on.joined, ahead]
  column := by
    simp only [on.column, List.length_append, List.length_reverse]
    omega

theorem advance (on : cursor.On line) : cursor.advance.On line := by
  rw [Cursor.advance]
  split
  · exact on
  next char rest ahead => exact on.move (show cursor.rest = [char] ++ rest from ahead)

theorem skipWhile (on : cursor.On line) (test : Char → Bool) : (cursor.skipWhile test).On line :=
  on.move (List.takeWhile_append_dropWhile).symm

theorem skipBlanks (on : cursor.On line) : cursor.skipBlanks.On line :=
  on.skipWhile Text.isBlank

theorem blanks? (on : cursor.On line) (moved : cursor.blanks? = some next) : next.On line := by
  simp only [Cursor.blanks?] at moved
  split at moved
  · split at moved
    · cases moved
      exact on.skipBlanks
    · cases moved
  · cases moved

theorem chars? (on : cursor.On line) {expected : List Char}
    (moved : cursor.chars? expected = some next) : next.On line := by
  simp only [Cursor.chars?] at moved
  split at moved
  next ahead =>
    cases moved
    exact on.move (List.prefix_iff_eq_append.1 (List.isPrefixOf_iff_prefix.1 ahead)).symm
  · cases moved

theorem name? (on : cursor.On line) {found : NameAt} (moved : cursor.name? = some (found, next)) :
    found.On line ∧ next.On line := by
  simp only [Cursor.name?] at moved
  split at moved
  next char rest ahead =>
    split at moved
    · cases moved
      refine ⟨⟨on.stands ?_ (List.takeWhile_prefix _), ?_⟩, on.skipWhile _⟩
      · rw [ahead]
        exact List.cons_ne_nil char rest
      · intro char member
        exact List.mem_takeWhile_imp member
    · cases moved
  · cases moved

theorem moreNames (on : cursor.On line) (bound : List Char) :
    (∀ found ∈ (Cursor.moreNames bound cursor).1, found.On line) ∧
      (Cursor.moreNames bound cursor).2.On line := by
  induction bound generalizing cursor with
  | nil => exact ⟨List.forall_mem_nil _, on⟩
  | cons _ bound ih =>
      rw [Cursor.moreNames]
      split
      next name next moved =>
        obtain ⟨comma, atComma, named⟩ := Option.bind_eq_some_iff.1 moved
        obtain ⟨here, behind⟩ := (on.skipBlanks.chars? atComma).skipBlanks.name? named
        exact ⟨List.forall_mem_cons.2 ⟨here, (ih behind).1⟩, (ih behind).2⟩
      · exact ⟨List.forall_mem_nil _, on⟩

theorem names? (on : cursor.On line) {found : List NameAt}
    (moved : cursor.names? = some (found, next)) :
    (∀ name ∈ found, name.On line) ∧ next.On line := by
  obtain ⟨⟨first, behind⟩, named, rest⟩ := Option.bind_eq_some_iff.1 moved
  obtain ⟨here, onward⟩ := on.name? named
  cases rest
  exact ⟨List.forall_mem_cons.2 ⟨here, (onward.moreNames behind.rest).1⟩,
    (onward.moreNames behind.rest).2⟩

end On

/-- What holds wherever something is recognised on a line holds of all that a search along the line
finds, if the recogniser leads to places of the line. -/
theorem forall_mem_findFrom {α : Type} {recognise : Cursor → Option (α × Cursor)} {line : Line}
    {holds : α → Prop}
    (recognises : ∀ cursor found next, cursor.On line → cursor.rest ≠ [] →
      recognise cursor = some (found, next) → holds found ∧ next.On line)
    (bound : List Char) {cursor : Cursor} (on : cursor.On line) :
    ∀ found ∈ findFrom recognise bound cursor, holds found := by
  induction bound generalizing cursor with
  | nil => exact List.forall_mem_nil _
  | cons _ bound ih =>
      rw [findFrom]
      split
      · exact List.forall_mem_nil _
      next more =>
        split
        next found next recognised =>
          obtain ⟨here, behind⟩ := recognises cursor found next on (by simpa using more) recognised
          refine List.forall_mem_cons.2 ⟨here, ih ?_⟩
          split
          · exact behind
          · exact on.advance
        next => exact ih on.advance

theorem forall_mem_findAll {α : Type} {recognise : Cursor → Option (α × Cursor)} {line : Line}
    {holds : α → Prop}
    (recognises : ∀ cursor found next, cursor.On line → cursor.rest ≠ [] →
      recognise cursor = some (found, next) → holds found ∧ next.On line) :
    ∀ found ∈ (start line).findAll recognise, holds found :=
  forall_mem_findFrom recognises line (on_start line)

/-! ## Names -/

theorem On.localNames? {line : Line} {cursor next : Cursor} (on : cursor.On line)
    {names : List NameAt} (found : Lua.localNames? cursor = some (names, next)) :
    (∀ name ∈ names, name.On line) ∧ next.On line := by
  obtain ⟨_, _, found⟩ := Option.bind_eq_some_iff.1 found
  obtain ⟨keyword, spelled, found⟩ := Option.bind_eq_some_iff.1 found
  obtain ⟨behind, apart, found⟩ := Option.bind_eq_some_iff.1 found
  have onward := (on.chars? spelled).blanks? apart
  split at found
  next pair named =>
    cases found
    obtain ⟨second, apart, named⟩ := Option.bind_eq_some_iff.1 named
    obtain ⟨keyword, spelled, apart⟩ := Option.bind_eq_some_iff.1 apart
    exact ((onward.chars? spelled).blanks? apart).names? named
  · exact onward.names? found

end Cursor

theorem on_of_mem_localNames {line : Line} {found : NameAt} (member : found ∈ localNames line) :
    found.On line := by
  have searched : ∀ names ∈ (Cursor.start line).findAll localNames?, ∀ name ∈ names, name.On line :=
    Cursor.forall_mem_findAll fun cursor names next on _ => on.localNames?
  obtain ⟨names, inSearch, inNames⟩ := List.mem_flatten.1 member
  exact searched names inSearch found inNames

theorem on_of_assignedName? {line : Line} {found : NameAt}
    (assigned : assignedName? line = some found) : found.On line := by
  obtain ⟨⟨name, next⟩, named, assigned⟩ := Option.bind_eq_some_iff.1 assigned
  obtain ⟨behind, _, assigned⟩ := Option.bind_eq_some_iff.1 assigned
  obtain ⟨_, _, assigned⟩ := Option.bind_eq_some_iff.1 assigned
  cases assigned
  exact ((Cursor.on_start line).skipBlanks.name? named).1

end Lua

end EditGate

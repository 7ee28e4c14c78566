import EditGate.Assoc
import EditGate.Diff.Script
import EditGate.Text.Lines
import EditGate.Text.Numeral
import EditGate.Value

/-!
# Reverse differences

A recipe that turns a text after an edit back into the text before it. Changed and
deleted lines are named by their places in the text after the edit, added lines by
their places in the restored text. Places are counted from zero.

Recipes can also come from stored data and then hold any places and values, so
applying one can fail.
-/

namespace EditGate.Diff

/-- Lines to be put back, by their places. -/
structure Recipe (α : Type) where
  additions : Assoc Int α
  deletions : Assoc Int α
  modifications : Assoc Int α
  /-- Whether the restored text ends with a line feed. -/
  endsLine : Bool

namespace Recipe

variable {α β : Type}

/-- Lines with consecutive places from `start` on. -/
def numbered (start : Nat) : List α → Assoc Int α
  | [] => []
  | line :: rest => ((start : Int), line) :: numbered (start + 1) rest

/-- Reads a recipe off a script from the lines after an edit to those before it. In a
changed part, lines are paired as far as both sides reach; the others are deleted or
added. -/
def ofScript (oldPlace newPlace : Nat) : List (Segment α) → Recipe α
  | [] => ⟨[], [], [], false⟩
  | .keep lines :: rest => ofScript (oldPlace + lines.length) (newPlace + lines.length) rest
  | .change old new :: rest =>
      let paired := min old.length new.length
      let later := ofScript (oldPlace + old.length) (newPlace + new.length) rest
      { additions := numbered (newPlace + paired) (new.drop paired) ++ later.additions
        deletions := numbered (oldPlace + paired) (old.drop paired) ++ later.deletions
        modifications := numbered oldPlace (new.take paired) ++ later.modifications
        endsLine := later.endsLine }

/-- The recipe that turns the lines `after` into the lines `before`. -/
def ofLines [DecidableEq α] [Hashable α] (before after : List α) : Recipe α :=
  ofScript 0 0 (script none after before)

/-- The recipe that turns the text `after` into the text `before`. -/
def ofTexts (before after : List Char) : Recipe Line :=
  { ofLines (Buffer.ofText before).lines (Buffer.ofText after).lines with
    endsLine := (Buffer.ofText before).ended }

/-- The same recipe for lines of another type. -/
def map (convert : α → β) (recipe : Recipe α) : Recipe β where
  additions := recipe.additions.map fun entry => (entry.1, convert entry.2)
  deletions := recipe.deletions.map fun entry => (entry.1, convert entry.2)
  modifications := recipe.modifications.map fun entry => (entry.1, convert entry.2)
  endsLine := recipe.endsLine

/-- The place that an index means in a list of `length` elements: a negative one counts
from the end. -/
def placeOf (length : Nat) (index : Int) : Int :=
  if index < 0 then index + length else index

/-- Writes a line at an index, if there is such a line. -/
def setLine? (lines : List α) (index : Int) (line : α) : Option (List α) :=
  let place := placeOf lines.length index
  if 0 ≤ place ∧ place < lines.length then some (lines.set place.toNat line) else none

/-- Puts a line before the one at an index. An index beyond an end means that end. -/
def insertLine (lines : List α) (index : Int) (line : α) : List α :=
  let place := (placeOf lines.length index).toNat
  lines.take place ++ line :: lines.drop place

/-- Writes lines one after the other, if there are such lines. -/
def setLines? (lines : List α) : Assoc Int α → Option (List α)
  | [] => some lines
  | (index, line) :: rest => (setLine? lines index line).bind fun lines => setLines? lines rest

/-- The lines whose places are not deleted, counting from `place`. -/
def keepLines (deletions : Assoc Int α) (place : Nat) : List α → List α
  | [] => []
  | line :: rest =>
      if deletions.any fun entry => entry.1 == (place : Int) then
        keepLines deletions (place + 1) rest
      else line :: keepLines deletions (place + 1) rest

/-- Adds lines one after the other. -/
def insertLines (lines : List α) (additions : Assoc Int α) : List α :=
  additions.foldl (fun lines entry => insertLine lines entry.1 entry.2) lines

/-- Entries in the order of their places. -/
def inOrder (entries : Assoc Int α) : Assoc Int α :=
  entries.mergeSort fun first second => first.1 ≤ second.1

/-- Applies a recipe: changes first, then deletions, then additions from the top. It
fails if a line to be changed is missing. -/
def rebuild? (recipe : Recipe α) (lines : List α) : Option (List α) :=
  (setLines? lines recipe.modifications).map fun lines =>
    insertLines (keepLines recipe.deletions 0 lines) (inOrder recipe.additions)

/-- Why a recipe cannot be applied. -/
inductive Fault where
  /-- A line to be changed is missing. -/
  | noSuchLine
  /-- A line is to be added too far away to be counted. -/
  | placeTooFar
  /-- A line is no text. -/
  | lineNotText
  /-- The text to start from is no text. -/
  | textNotText

/-- Whether a line can be added at an index, given how many lines there are in the end. The
index has to fit a word of 64 bits, even where it means an end; a place among the lines
always does, since such a word counts them. -/
def isCountable (count : Nat) (index : Int) : Bool :=
  (-9223372036854775808 ≤ index && index ≤ 9223372036854775807) ||
    (0 ≤ index && index < count)

/-- The text of a value. -/
def lineOf? : Value → Option Line
  | .str text => some text.toList
  | _ => none

/-- A line as data. -/
def lineValue (line : Line) : Value :=
  .str (String.ofList line)

/-- Applies a stored recipe to a text. -/
def restore (recipe : Recipe Value) (text : List Char) : Except Fault (List Char) :=
  match recipe.rebuild? ((Buffer.ofText text).lines.map lineValue) with
  | none => .error .noSuchLine
  | some values =>
      if !recipe.additions.all fun entry => isCountable values.length entry.1 then
        .error .placeTooFar
      else match values.mapM lineOf? with
      | none => .error .lineNotText
      | some lines => .ok (Buffer.toText .lineFeed ⟨lines, recipe.endsLine⟩)

/-- The number of characters that a recipe stores. -/
def charCount (recipe : Recipe Line) : Nat :=
  (recipe.additions ++ recipe.deletions ++ recipe.modifications).foldr
    (fun entry total => entry.2.length + total) 0

/-- The size of a value that has one: the characters of a text, the parts of a list or
an object. -/
def sizeOf? : Value → Option Nat
  | .str text => some text.length
  | .list items | .tuple items => some items.length
  | .object fields => some fields.length
  | _ => none

/-- The number of characters that a stored recipe holds, if all of its values have a size. -/
def storedChars? (recipe : Recipe Value) : Option Nat :=
  ((recipe.additions ++ recipe.deletions ++ recipe.modifications).mapM fun entry =>
    sizeOf? entry.2).map (List.foldr (· + ·) 0)

/-- Whether every place of a recipe can be written. -/
def isWritable (recipe : Recipe α) : Bool :=
  (recipe.additions ++ recipe.deletions ++ recipe.modifications).all fun entry =>
    Text.isWritable entry.1

/-- Lines by their places as data. -/
def entriesValue (entries : Assoc Int Value) : Value :=
  .object (entries.map fun entry => (toString entry.1, entry.2))

/-- A recipe as data. -/
def toValue (recipe : Recipe Value) : Value :=
  .object [("additions", entriesValue recipe.additions),
    ("deletions", entriesValue recipe.deletions),
    ("modifications", entriesValue recipe.modifications),
    ("trailing_newline", .bool recipe.endsLine)]

/-- Why data make no recipe. -/
inductive Error where
  /-- The data or a part of them are no object. -/
  | notObject
  /-- A place is no whole number. -/
  | notInteger

/-- Reads lines by their places. If a place is written twice, its first rank and its last
line count. -/
def readEntries (value : Value) : Except Error (Assoc Int Value) :=
  match value with
  | .object fields =>
      match fields.mapM fun field => (Text.readInt? field.1.toList).map (·, field.2) with
      | some entries => .ok (Assoc.ofPairs entries)
      | none => .error .notInteger
  | _ => .error .notObject

/-- Reads a recipe from data. A part that is missing is empty. -/
def ofValue (value : Value) : Except Error (Recipe Value) :=
  match value with
  | .object _ => do
      let additions ← readEntries ((value.field? "additions").getD (.object []))
      let deletions ← readEntries ((value.field? "deletions").getD (.object []))
      let modifications ← readEntries ((value.field? "modifications").getD (.object []))
      let endsLine := (value.fieldD "trailing_newline").isTruthy
      .ok ⟨additions, deletions, modifications, endsLine⟩
  | _ => .error .notObject

end Recipe

end EditGate.Diff

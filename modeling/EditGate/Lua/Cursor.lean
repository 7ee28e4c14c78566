import EditGate.Text.Blank
import EditGate.Text.Word

/-!
# Cursors in a line

A place in a line of code, with the characters before it, the nearest first, and
those after it. Recognisers take a cursor and give back the one behind what they
recognised.
-/

namespace EditGate.Lua

/-- A place between two characters of a line. -/
structure Cursor where
  before : List Char
  rest : List Char
  /-- The column of the next character, counted from one. -/
  column : Nat

/-- A name and the column of its first character, counted from one. -/
structure NameAt where
  name : List Char
  column : Nat
deriving DecidableEq, Repr

namespace Cursor

/-- The start of a line. -/
def start (line : List Char) : Cursor :=
  ⟨[], line, 1⟩

/-- Moves behind one character. -/
def advance (cursor : Cursor) : Cursor :=
  match cursor.rest with
  | [] => cursor
  | char :: rest => ⟨char :: cursor.before, rest, cursor.column + 1⟩

/-- Whether a word could start here: no word character stands right before. -/
def atWordStart (cursor : Cursor) : Bool :=
  match cursor.before with
  | char :: _ => !Text.isWord char
  | [] => true

/-- Whether a word could end here: no word character stands right behind. -/
def atWordEnd (cursor : Cursor) : Bool :=
  match cursor.rest with
  | char :: _ => !Text.isWord char
  | [] => true

/-- Moves behind all characters in front that pass a test. -/
def skipWhile (test : Char → Bool) (cursor : Cursor) : Cursor :=
  let taken := cursor.rest.takeWhile test
  ⟨taken.reverse ++ cursor.before, cursor.rest.dropWhile test, cursor.column + taken.length⟩

/-- Moves behind white space. -/
def skipBlanks (cursor : Cursor) : Cursor :=
  cursor.skipWhile Text.isBlank

/-- Moves behind white space, of which there has to be some. -/
def blanks? (cursor : Cursor) : Option Cursor :=
  match cursor.rest with
  | char :: _ => if Text.isBlank char then some cursor.skipBlanks else none
  | [] => none

/-- Moves behind the given characters if they come next. -/
def chars? (expected : List Char) (cursor : Cursor) : Option Cursor :=
  if expected.isPrefixOf cursor.rest then
    some ⟨expected.reverse ++ cursor.before, cursor.rest.drop expected.length,
      cursor.column + expected.length⟩
  else none

/-- Moves behind one given character. -/
def char? (expected : Char) (cursor : Cursor) : Option Cursor :=
  cursor.chars? [expected]

/-- Moves behind a name. -/
def name? (cursor : Cursor) : Option (NameAt × Cursor) :=
  match cursor.rest with
  | char :: _ =>
      if Text.isNameStart char then
        some (⟨cursor.rest.takeWhile Text.isWord, cursor.column⟩, cursor.skipWhile Text.isWord)
      else none
  | [] => none

/-- Further names, each after a comma. Every name takes a character, so there are no more of
them than `bound` has characters. -/
def moreNames : (bound : List Char) → Cursor → List NameAt × Cursor
  | [], cursor => ([], cursor)
  | _ :: bound, cursor =>
      match (cursor.skipBlanks.char? ',').bind (·.skipBlanks.name?) with
      | some (name, next) =>
          let (names, last) := moreNames bound next
          (name :: names, last)
      | none => ([], cursor)

/-- Moves behind names with commas between them. -/
def names? (cursor : Cursor) : Option (List NameAt × Cursor) := do
  let (first, next) ← cursor.name?
  let (others, last) := moreNames next.rest next
  some (first :: others, last)

/-- All that a recogniser finds from a cursor on. Each turn moves on by a character at least,
so `bound` need not have more characters than are left. -/
def findFrom {α : Type} (recognise : Cursor → Option (α × Cursor)) :
    (bound : List Char) → Cursor → List α
  | [], _ => []
  | _ :: bound, cursor =>
      if cursor.rest.isEmpty then []
      else match recognise cursor with
        | some (found, next) =>
            found :: findFrom recognise bound
              (if cursor.column < next.column then next else cursor.advance)
        | none => findFrom recognise bound cursor.advance

/-- All that a recogniser finds from a cursor on, from left to right and without
overlap. Where it finds nothing, the search moves on by one character. -/
def findAll {α : Type} (recognise : Cursor → Option (α × Cursor)) (cursor : Cursor) : List α :=
  findFrom recognise cursor.rest cursor

end Cursor

end EditGate.Lua

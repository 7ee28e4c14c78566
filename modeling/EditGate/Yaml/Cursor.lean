/-!
# Places in a YAML text

A cursor is the rest of a text together with where it starts. Lines and columns are counted
by the line feed alone: the other characters that end a line for YAML do not start a new
column, and a byte order mark takes none.
-/

namespace EditGate.Yaml

/-- Why a text has no value. -/
inductive Fault where
  /-- The text is no document. -/
  | malformed
  /-- A scalar has the form of a number, a day or a character and means none. -/
  | meaningless
  /-- A word is to be looked up and is not among those known. -/
  | unknownWord
  /-- A number is asked for and nothing is written. -/
  | absent
  /-- A number cannot be held. -/
  | outOfRange
  /-- A list of lists is used as a key. -/
  | unusableKey
  /-- An ordered mapping names a key twice. -/
  | repeatedKey
  /-- Collections are nested too deeply. -/
  | tooDeep
deriving DecidableEq, Repr

/-- Characters that end a line. -/
def isBreak (char : Char) : Bool :=
  char == '\n' || char == '\r' || char == '\u0085' || char == '\u2028' || char == '\u2029'

/-- Blanks within a line. -/
def isBlank (char : Char) : Bool :=
  char == ' ' || char == '\t'

/-- Whether the line ends here. The end of the text is no character. -/
def endsLine (char : Option Char) : Bool :=
  char.all isBreak

/-- Whether a word ends here. -/
def endsWord (char : Option Char) : Bool :=
  char.all fun char => isBreak char || isBlank char

/-- Whether a word ends here with a space or with its line. -/
def endsField (char : Option Char) : Bool :=
  char.all fun char => isBreak char || char == ' '

/-- Brackets and commas, which separate the parts of a flow collection. -/
def isFlowMark (char : Char) : Bool :=
  char == ',' || char == '[' || char == ']' || char == '\x7b' || char == '\x7d'

/-- Characters that a document may hold. -/
def isAllowed (char : Char) : Bool :=
  let code := char.toNat
  char == '\t' || char == '\n' || char == '\r' || code == 0x85 ||
    (0x20 ≤ code && code ≤ 0x7e) || (0xa0 ≤ code && code != 0xfffe && code != 0xffff)

/-- The rest of a text and where it starts. -/
structure Cursor where
  rest : List Char
  /-- The number of characters of the whole text. -/
  size : Nat
  index : Nat := 0
  line : Nat := 0
  column : Nat := 0

namespace Cursor

/-- The start of a text. -/
def ofChars (chars : List Char) : Cursor :=
  { rest := chars, size := chars.length }

/-- The number of characters that are left. -/
def left (cursor : Cursor) : Nat :=
  cursor.size - cursor.index

/-- The character in front. -/
def peek (cursor : Cursor) : Option Char :=
  cursor.rest.head?

/-- The character some places on. -/
def peekAt (cursor : Cursor) (distance : Nat) : Option Char :=
  cursor.rest[distance]?

/-- The place behind the character in front. -/
def advance (cursor : Cursor) : Cursor :=
  match cursor.rest with
  | [] => cursor
  | char :: rest =>
      let next := { cursor with rest := rest, index := cursor.index + 1 }
      if char = '\n' ∨ (char = '\r' ∧ rest.head? ≠ some '\n') then
        { next with line := cursor.line + 1, column := 0 }
      else if char = '\ufeff' then next
      else { next with column := cursor.column + 1 }

/-- The place some characters on. -/
def advanceBy (cursor : Cursor) : Nat → Cursor
  | 0 => cursor
  | count + 1 => cursor.advance.advanceBy count

/-- The characters in front that satisfy a predicate, and the place behind them. -/
def takeWhile (cursor : Cursor) (test : Char → Bool) : List Char × Cursor :=
  let taken := cursor.rest.takeWhile test
  (taken, cursor.advanceBy taken.length)

/-- The place behind the characters in front that satisfy a predicate. -/
def skipWhile (cursor : Cursor) (test : Char → Bool) : Cursor :=
  (cursor.takeWhile test).2

/-- The place behind the spaces in front that stand before a column. -/
def skipIndent (cursor : Cursor) (column : Nat) : Cursor :=
  cursor.advanceBy (min (column - cursor.column) (cursor.rest.takeWhile (· == ' ')).length)

/-- A line break in front, as the character that it means, and the place behind it. -/
def lineBreak? (cursor : Cursor) : Option (Char × Cursor) :=
  match cursor.rest with
  | '\r' :: '\n' :: _ => some ('\n', cursor.advanceBy 2)
  | char :: _ =>
      if char = '\u2028' ∨ char = '\u2029' then some (char, cursor.advance)
      else if isBreak char then some ('\n', cursor.advance)
      else none
  | [] => none

/-- The place behind the rest of a line and its break. -/
def nextLine (cursor : Cursor) : Cursor :=
  match cursor.lineBreak? with
  | some (_, after) => after
  | none => cursor

/-- Whether three hyphens, or three dots, stand in front and a word ends there. -/
def atDocumentMark (cursor : Cursor) (mark : Char) : Bool :=
  cursor.rest.take 3 == [mark, mark, mark] && endsWord (cursor.peekAt 3)

/-- Whether one of the marks between documents stands in front. -/
def atDocumentEdge (cursor : Cursor) : Bool :=
  cursor.atDocumentMark '-' || cursor.atDocumentMark '.'

end Cursor

end EditGate.Yaml

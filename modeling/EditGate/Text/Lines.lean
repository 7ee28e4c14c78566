/-!
# Lines and buffers

Only a line feed separates lines. A buffer is a text seen as its lines together
with the knowledge whether the last of them was ended by a line feed, so that
the empty remainder after a final line feed is not counted as a line.

A carriage return before a line feed stays in its line. Which of the two line
endings a text uses is a property of the whole text.
-/

namespace EditGate

/-- The characters of one line, without its line feed. -/
abbrev Line := List Char

instance Line.instHashable : Hashable Line :=
  @instHashableList Char instHashableChar

/-- The pieces of a text between the occurrences of a separator; there is always one. -/
def pieces (separator : Char) : List Char → List (List Char)
  | [] => [[]]
  | char :: rest =>
      if char = separator then [] :: pieces separator rest
      else match pieces separator rest with
        | [] => [[char]]
        | piece :: others => (char :: piece) :: others

/-- The pieces between line feeds, the empty remainder after a final one included. -/
def Line.split (text : List Char) : List Line :=
  pieces '\n' text

/-- The line without one carriage return at its end. -/
def Line.stripReturn (line : Line) : Line :=
  if line.getLast? = some '\r' then line.dropLast else line

/-- The two ways to end a line. -/
inductive LineEnding where
  | lineFeed
  | returnLineFeed
deriving DecidableEq, Repr

namespace LineEnding

/-- The characters that end a line. -/
def chars : LineEnding → List Char
  | lineFeed => ['\n']
  | returnLineFeed => ['\r', '\n']

/-- The ending that a text uses: one carriage return before a line feed decides. -/
def ofText : List Char → LineEnding
  | '\r' :: '\n' :: _ => returnLineFeed
  | _ :: rest => ofText rest
  | [] => lineFeed

end LineEnding

/-- A text as its lines, and whether the last line is ended by a line feed. -/
structure Buffer where
  lines : List Line
  ended : Bool
deriving DecidableEq, Repr

namespace Buffer

/-- The lines of a text. The empty text has none. -/
def ofText (text : List Char) : Buffer :=
  match text with
  | [] => ⟨[], false⟩
  | text =>
      let lines := Line.split text
      if lines.getLast? = some [] then ⟨lines.dropLast, true⟩ else ⟨lines, false⟩

/-- Puts the lines together again. A buffer without lines is empty even if it is ended. -/
def toText (ending : LineEnding) (buffer : Buffer) : List Char :=
  match buffer.lines with
  | [] => []
  | lines => ending.chars.intercalate lines ++ if buffer.ended then ending.chars else []

/-- The number of lines of a text. -/
def lineCount (text : List Char) : Nat :=
  (ofText text).lines.length

end Buffer

end EditGate

import EditGate.Text.Lines
import EditGate.Text.Lowercase
import EditGate.Value.Numeric

/-!
# Edits

A request to insert, replace or delete lines of a text. Lines are counted from one
and the last line is included. The new text is kept as it came, since a deletion never
looks at it, and so is the last line, at which an insertion never looks. Before lines are
taken out, the last one is compared as a number of any kind; then it has to be whole.

An edit that does not fit a text is refused and never adjusted. One that fits gives
the lines before, the new lines and the lines behind, all with the line ending of
the text.
-/

namespace EditGate

/-- What an edit does. -/
inductive Operation where
  | insert
  | replace
  | delete
deriving DecidableEq, Repr

namespace Operation

/-- The name of an operation. -/
def name : Operation → String
  | insert => "insert"
  | replace => "replace"
  | delete => "delete"

/-- The name of an operation at the start of a sentence. -/
def title : Operation → String
  | insert => "Insert"
  | replace => "Replace"
  | delete => "Delete"

/-- The operation with a name in any mixture of cases. -/
def ofName? (text : String) : Option Operation :=
  [insert, replace, delete].find? fun operation => operation.name == Text.lower text

/-- The operation that a value names. -/
def ofValue? : Value → Option Operation
  | .str text => ofName? text
  | _ => none

end Operation

/-- A request to change lines. -/
structure Edit where
  operation : Operation
  first : Int
  /-- The last line as it came, or nothing. -/
  last : Value
  /-- The new text as it came, or nothing. -/
  payload : Value

namespace Edit

/-- Why an edit is refused. -/
inductive Error where
  /-- The request is no object. -/
  | notObject
  /-- The operation is not one of the three. -/
  | unknownOperation (given : Value)
  /-- A line is no whole number. -/
  | linesNotIntegers
  /-- The lines are not lines of the text. -/
  | outside (operation : Operation) (first : Int) (last : Value) (count : Nat)
  /-- The last line is no number to compare with. -/
  | lastNotNumber
  /-- The last line is a number, but no whole one. -/
  | lastNotWhole
  /-- There is no new text. -/
  | payloadMissing (operation : Operation)
  /-- The new text is no text. -/
  | payloadNotText
  /-- The new text for an empty buffer is a plain value, in which no line ending can be
  looked for. -/
  | payloadNotSearchable

/-- The wording of an error. -/
def Error.message : Error → String
  | notObject => "An edit must be an object"
  | unknownOperation given => "Unknown edit operation: " ++ given.literal
  | linesNotIntegers => "line_start/line_end must be integers"
  | outside .insert first _ count => s!"Insert at line {first} is outside 1..{count + 1}"
  | outside operation first last count =>
      s!"{operation.title} of lines {first}-{last.display} is outside 1..{count}"
  | lastNotNumber => "The last line of an edit must be a number"
  | lastNotWhole => "The last line of an edit must be a whole number"
  | payloadMissing operation => s!"new_text is required for {operation.name}"
  | payloadNotText => "The new text of an edit must be a string"
  | payloadNotSearchable => "The new text of an empty buffer must be a string"

/-- The last line as it came; the first one if none is given. -/
def lastValue (edit : Edit) : Value :=
  match edit.last with
  | .null => .int edit.first
  | line => line

/-- The last line that an edit speaks of, where it is a whole number. Truth values count as
one and zero. -/
def lastLine (edit : Edit) : Int :=
  edit.lastValue.whole?.getD edit.first

/-- Whether the last line is a number, or left out. -/
def lastIsNumber (edit : Edit) : Bool :=
  edit.lastValue.number?.isSome

/-- Reads an edit from data. -/
def ofValue (value : Value) : Except Error Edit :=
  match value with
  | .object _ =>
      let given := value.fieldD "operation"
      match Operation.ofValue? given with
      | none => .error (.unknownOperation given)
      | some operation =>
          match value.fieldD "line_start", value.fieldD "line_end" with
          | .int first, .null => .ok ⟨operation, first, .null, value.fieldD "new_text"⟩
          | .int first, .int last => .ok ⟨operation, first, .int last, value.fieldD "new_text"⟩
          | _, _ => .error .linesNotIntegers
  | _ => .error .notObject

/-- An edit as data. -/
def toValue (edit : Edit) : Value :=
  .object [("operation", .str edit.operation.name), ("line_start", .int edit.first),
    ("line_end", edit.last), ("new_text", edit.payload)]

/-- Whether the lines of an edit are lines of a text of `count` lines. There is no answer if
the first one may be and the last one cannot be compared. -/
def rangeFits? (edit : Edit) (count : Nat) : Option Bool :=
  if edit.operation = .insert then some (decide (1 ≤ edit.first ∧ edit.first ≤ count + 1))
  else if edit.first < 1 then some false
  else edit.lastValue.number?.map fun last =>
    (Number.whole edit.first).atMost last && last.atMost (.whole count)

/-- Refuses an edit that does not fit a text of `count` lines, or that lacks its text. -/
def check (edit : Edit) (count : Nat) : Except Error Unit :=
  match edit.rangeFits? count with
  | none => .error .lastNotNumber
  | some false => .error (.outside edit.operation edit.first edit.lastValue count)
  | some true =>
      match edit.operation, edit.payload with
      | .delete, _ => .ok ()
      | operation, .null => .error (.payloadMissing operation)
      | _, _ => .ok ()

/-- The lines of a new text. A line feed at the end ends the last line and starts no
other; a carriage return at the end of a line is dropped. -/
def newLines (text : List Char) : List Line :=
  let lines := Line.split text
  let lines := if 1 < lines.length ∧ lines.getLast? = some [] then lines.dropLast else lines
  lines.map Line.stripReturn

/-- Whether a value is a plain one that counts as a yes. -/
def isPlainYes : Value → Bool
  | .bool flag => flag
  | .int number => number != 0
  | .float number => !number.isZero
  | _ => false

/-- The new text of an edit, for a buffer that is empty or not. A deletion has none. -/
def newText (edit : Edit) (emptyBuffer : Bool) : Except Error (List Char) :=
  match edit.operation, edit.payload with
  | .delete, _ => .ok []
  | _, .str text => .ok text.toList
  | _, other =>
      if emptyBuffer && isPlainYes other then .error .payloadNotSearchable
      else .error .payloadNotText

/-- How many lines stand before those that an edit is about. -/
def start (edit : Edit) : Nat :=
  (edit.first - 1).toNat

/-- How many lines end with those that an edit takes out. An insertion takes out none. -/
def rangeEnd (edit : Edit) : Except Error Nat :=
  match edit.operation, edit.lastValue.whole? with
  | .insert, _ => .ok edit.start
  | _, some line => .ok line.toNat
  | _, none => .error .lastNotWhole

/-- The text that an edit makes of another. Into an empty text the new one goes with its
own line ending. -/
def apply (edit : Edit) (text : List Char) : Except Error (List Char) := do
  let buffer := Buffer.ofText text
  edit.check buffer.lines.length
  let added ← edit.newText text.isEmpty
  let ending := LineEnding.ofText (if text.isEmpty then added else text)
  let lines := if ending = .returnLineFeed then buffer.lines.map Line.stripReturn else buffer.lines
  let brought := if edit.operation = .delete then [] else newLines added
  let stop ← edit.rangeEnd
  let lines := lines.take edit.start ++ brought ++ lines.drop stop
  let ended := buffer.ended || (text.isEmpty && added.getLast? == some '\n')
  .ok (Buffer.toText ending ⟨lines, ended⟩)

/-- An edit as it is handed over, with an operation of any kind. -/
structure Proposal where
  operation : Operation ⊕ Value
  first : Int
  last : Value
  payload : Value

namespace Proposal

/-- The edit that is proposed. Its operation has to be one of the three. -/
def edit (proposal : Proposal) : Except Error Edit :=
  match proposal.operation with
  | .inl operation => .ok ⟨operation, proposal.first, proposal.last, proposal.payload⟩
  | .inr given => .error (.unknownOperation given)

/-- The text that a proposed edit makes of another. -/
def apply (proposal : Proposal) (text : List Char) : Except Error (List Char) := do
  (← proposal.edit).apply text

end Proposal

end Edit

end EditGate

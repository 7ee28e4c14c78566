import EditGate.History
import EditGate.Value.Json
import EditGate.Value.Reader

/-!
# Stored histories

A history is kept as indented JSON: the capacity, and for each file its head and its
entries. One with a number of too many digits cannot be stored. Reading one back keeps the
capacity of the reader and cuts the entries of each file to it. The stored text is read as a
whole or not at all.
-/

namespace EditGate.History

/-- A head as data. -/
def headValue : Option Value → Value
  | some head => head
  | none => .null

/-- A history as data. -/
def toValue (history : History) : Value :=
  .object [("capacity", history.capacity.given),
    ("files", .object (history.entries.map fun file =>
      (file.1, .object [("head", headValue (history.head? file.1)),
        ("entries", .list (file.2.map Entry.toValue))])))]

/-- A history as text. -/
def toText (history : History) : List Char :=
  history.toValue.toIndentedJson.toList

/-- Whether every whole number of a history can be written. -/
def isWritable (history : History) : Bool :=
  history.toValue.isWritable &&
    history.entries.all fun file => file.2.all fun entry => entry.recipe.isWritable

/-- A history as the text that is stored, if it can be. -/
def toText? (history : History) : Option (List Char) :=
  if history.isWritable then some history.toText else none

/-- Why a stored text is no history. -/
inductive ArchiveError where
  /-- The text or its shape is wrong. -/
  | unreadable
  /-- The edit of an entry is malformed. -/
  | edit (cause : Edit.Error)
  /-- A number of an entry cannot be held. -/
  | outOfRange
  /-- The text is nested too deeply. -/
  | tooDeep
  /-- A string of the text names half of a pair alone, so that the text is not judged. -/
  | halfPair

/-- The wording of an error. -/
def ArchiveError.message : ArchiveError → String
  | unreadable => "Unable to import history"
  | edit cause => cause.message
  | outOfRange => "A number of the history is too large"
  | tooDeep => "The history is nested too deeply"
  | halfPair => "The history holds half of a pair"

/-- What a faulty entry means for the whole text. An edit that is no object is a matter of
shape. -/
def ArchiveError.ofEntry : Entry.Error → ArchiveError
  | .number .outOfRange => outOfRange
  | .edit .notObject => unreadable
  | .edit cause => edit cause
  | _ => unreadable

/-- Reads the entries of a file. An empty text or object is an empty list too. -/
def readEntries : Value → Except ArchiveError (List Entry)
  | .list items => items.mapM fun item => (Entry.ofValue item).mapError .ofEntry
  | .str text => if text.isEmpty then .ok [] else .error .unreadable
  | .object fields => if fields.isEmpty then .ok [] else .error .unreadable
  | _ => .error .unreadable

/-- Reads the entries of the files in turn, each cut to the capacity. -/
def readFiles (capacity : Capacity) :
    List (String × Value) → Except ArchiveError (Assoc String (List Entry))
  | [] => .ok []
  | (key, .object fields) :: rest => do
      let entries ← readEntries ((Assoc.find? "entries" fields).getD (.list []))
      if capacity.isWhole then
        .ok ((key, capacity.keep entries) :: (← readFiles capacity rest))
      else .error .unreadable
  | _ :: _ => .error .unreadable

theorem holds_readFiles {capacity : Capacity} {files : List (String × Value)}
    {entries : Assoc String (List Entry)} (read : readFiles capacity files = .ok entries) :
    ∀ file ∈ entries, capacity.Holds file.2 := by
  fun_induction readFiles capacity files generalizing entries with
  | case1 =>
      cases read
      exact List.forall_mem_nil _
  | case2 key fields rest ih =>
      cases given : readEntries ((Assoc.find? "entries" fields).getD (.list [])) with
      | error cause => simp [given, bind, Except.bind] at read
      | ok items =>
          simp only [given, bind, Except.bind] at read
          split at read
          · cases behind : readFiles capacity rest with
            | error cause =>
                rw [behind] at read
                cases read
            | ok others =>
                rw [behind] at read
                cases read
                exact List.forall_mem_cons.2 ⟨capacity.holds_keep items, ih behind⟩
          · cases read
  | case3 => cases read

/-- The heads of the files that have one. -/
def readHeads (files : List (String × Value)) : Assoc String Value :=
  files.filterMap fun (key, data) =>
    match data.fieldD "head" with
    | .null => none
    | head => some (key, head)

/-- Reads the content of a history from data. -/
def restoreValue (history : History) (value : Value) : Except ArchiveError History :=
  match value with
  | .object fields =>
      match (Assoc.find? "files" fields).getD (.object []) with
      | .object files =>
          match read : readFiles history.capacity files with
          | .ok entries =>
              .ok { history with
                entries := entries
                heads := readHeads files
                fits := holds_readFiles read }
          | .error cause => .error cause
      | _ => .error .unreadable
  | _ => .error .unreadable

/-- Replaces the content of a history by a stored one, which may be nested so many levels
deep. -/
def restore (history : History) (nesting : Nat) (text : List Char) :
    Except ArchiveError History :=
  match Value.ofJsonChars nesting text with
  | .ok value => history.restoreValue value
  | .error .tooDeep => .error .tooDeep
  | .error .halfPair => .error .halfPair
  | .error _ => .error .unreadable

end EditGate.History

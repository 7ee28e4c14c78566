import EditGate.History.Capacity
import EditGate.History.Entry
import EditGate.Settings

/-!
# History

The edits of each file that can be taken back, the latest first, and the text that the
latest one left, called the head. A file keeps at most as many entries as the capacity
says; the oldest one makes room. Taking edits back applies the recipes of the latest
entries in turn and drops them.
-/

namespace EditGate

/-- The edits of every file that can be taken back. -/
@[ext] structure History where
  capacity : History.Capacity
  /-- The entries of each file, the latest first. -/
  entries : Assoc String (List History.Entry) := []
  /-- The text that the latest edit of each file left. A stored history may hold any value. -/
  heads : Assoc String Value := []
  /-- No file has more entries than fit. -/
  fits : ∀ file ∈ entries, capacity.Holds file.2

namespace History

/-- The history that nothing has happened in. -/
def empty (capacity : Capacity) : History :=
  { capacity := capacity, fits := List.forall_mem_nil _ }

/-- The history that settings call for. -/
def ofSettings (settings : Settings) : History :=
  empty (.ofNat settings.historyCapacity settings.historyCapacity_pos)

/-- The entries of a file, the latest first. -/
def entriesOf (history : History) (key : String) : List Entry :=
  (Assoc.find? key history.entries).getD []

/-- The head of a file. -/
def head? (history : History) (key : String) : Option Value :=
  Assoc.find? key history.heads

/-- The entries of a file in short. -/
def summaries (history : History) (key : String) : List Value :=
  (history.entriesOf key).map Entry.summary

/-- Sets the head of a file. -/
def setHead (history : History) (key : String) (head : Value) : History :=
  { history with heads := Assoc.put key head history.heads }

theorem holds_entriesOf (history : History) (key : String) :
    history.capacity.Holds (history.entriesOf key) := by
  rw [entriesOf]
  cases known : Assoc.find? key history.entries with
  | none => exact Capacity.holds_nil
  | some entries => exact history.fits _ (Assoc.mem_of_find? known)

/-- Sets the entries and the head of a file. -/
def write (history : History) (key : String) (entries : List Entry) (head : Value)
    (holds : history.capacity.Holds entries) : History :=
  { history with
    entries := Assoc.put key entries history.entries
    heads := Assoc.put key head history.heads
    fits := by
      intro file among
      rcases Assoc.mem_of_mem_put among with rfl | old
      · exact holds
      · exact history.fits file old }

/-- Puts an entry in front of a file's entries and sets its head. -/
def push (history : History) (key : String) (entry : Entry) (after : List Char) : History :=
  history.write key (history.capacity.takeIn entry (history.entriesOf key))
    (.str (String.ofList after)) ((history.holds_entriesOf key).takeIn entry)

/-- Records that a file was changed. -/
def record (history : History) (now : Binary64) (key : String) (before after : List Char)
    (edit : Option Edit) : History :=
  history.push key (Entry.ofTexts now before after edit) after

/-- Records an edit of a file, carried out as it is. -/
def recordEdit (history : History) (now : Binary64) (key : String) (before : List Char)
    (edit : Edit) : Except Edit.Error History :=
  (edit.apply before).map fun after => history.record now key before after (some edit)

/-- The text that a value stands for. Whatever counts as a no stands for the empty text. -/
def textOf (value : Value) : Except Diff.Recipe.Fault (List Char) :=
  match value with
  | .str text => .ok text.toList
  | value => if value.isTruthy then .error .textNotText else .ok []

/-- Why an edit is not recorded. -/
inductive RecordError where
  /-- There is neither an edit nor a text after it. -/
  | noEdit
  /-- The edit cannot be carried out. -/
  | edit (cause : Edit.Error)
  /-- What should be a text is none. -/
  | text (cause : Diff.Recipe.Fault)

/-- Records an edit of a file. The text after it is taken as it is given; if none is, the
edit is carried out. -/
def recordCommit (history : History) (now : Binary64) (key : String) (before : Value) :
    (edit : Option Edit) → (after : Value) → Except RecordError History
  | none, .null => .error .noEdit
  | some edit, .null => do
      let text ← (textOf before).mapError .text
      (history.recordEdit now key text edit).mapError .edit
  | edit, after => do
      let old ← (textOf before).mapError .text
      let new ← (textOf after).mapError .text
      .ok ((history.record now key old new edit).setHead key after)

/-- Why edits cannot be taken back. -/
inductive Error where
  /-- How many edits is no number. -/
  | stepsNotNumber
  /-- Fewer than one edit is to be taken back. -/
  | stepsTooFew
  /-- There are not as many entries. -/
  | insufficient (key : String) (requested : Value) (available : Nat)
  /-- There is no text to start from. -/
  | noText (key : String)
  /-- How many edits is no whole number, which could be counted off. -/
  | stepsNotWhole
  /-- A recipe does not fit. -/
  | recipe (cause : Diff.Recipe.Fault)

/-- The wording of an error. -/
def Error.message : Error → String
  | stepsNotNumber => "Rollback steps must be a number"
  | stepsTooFew => "Rollback steps must be at least 1"
  | insufficient key requested available =>
      s!"Rollback of {requested.display} step(s) requested for '{key}', only {available} available."
  | noText key => s!"No current text known for '{key}'"
  | stepsNotWhole => "Rollback steps must be a whole number"
  | recipe .noSuchLine => "A line to be restored is missing"
  | recipe .placeTooFar => "A line to be restored is too far away"
  | recipe .lineNotText => "A line to be restored is not a string"
  | recipe .textNotText => "The text to be restored is not a string"

/-- Takes edits back, the latest first. -/
def undoAll (text : List Char) : List Entry → Except Diff.Recipe.Fault (List Char)
  | [] => .ok text
  | entry :: rest => do undoAll (← entry.undo text) rest

/-- What to start from: the current text if it is given, else the head. -/
def startFrom? (head? : Option Value) (current : Value) : Option Value :=
  match current, head? with
  | .null, none | .null, some .null => none
  | .null, some head => some head
  | current, _ => some current

/-- What to start from in a file. -/
def start? (history : History) (key : String) (current : Value) : Option Value :=
  startFrom? (history.head? key) current

/-- The text before the latest edits of a file, and how many these are. Their number is
compared with the entries before it is counted off. -/
def previewCount (history : History) (key : String) (steps current : Value) :
    Except Error (List Char × Nat) := do
  let entries := history.entriesOf key
  match steps.number? with
  | none => .error .stepsNotNumber
  | some number =>
      if number.less (.whole 1) then .error .stepsTooFew
      else if Number.less (.whole entries.length) number then
        .error (.insufficient key steps entries.length)
      else match history.start? key current, steps.whole? with
        | none, _ => .error (.noText key)
        | some _, none => .error .stepsNotWhole
        | some start, some count =>
            let text ← (textOf start).mapError .recipe
            let before ← (undoAll text (entries.take count.toNat)).mapError .recipe
            .ok (before, count.toNat)

/-- The text before the latest edits of a file. -/
def preview (history : History) (key : String) (steps current : Value) :
    Except Error (List Char) :=
  (history.previewCount key steps current).map Prod.fst

/-- Drops the latest entries of a file and sets its head. -/
def drop (history : History) (key : String) (steps : Nat) (text : List Char) : History :=
  history.write key ((history.entriesOf key).drop steps) (.str (String.ofList text))
    ((history.holds_entriesOf key).drop steps)

/-- Takes the latest edits of a file back. Beside the history without them stands the text
before them. -/
def rollback (history : History) (key : String) (steps current : Value) :
    Except Error (List Char × History) :=
  (history.previewCount key steps current).map fun (text, count) =>
    (text, history.drop key count text)

/-- Forgets a file. -/
def forget (history : History) (key : String) : History :=
  { history with
    entries := Assoc.erase key history.entries
    heads := Assoc.erase key history.heads
    fits := fun file among => history.fits file (List.mem_filter.1 among).1 }

/-- Forgets every file. -/
def forgetAll (history : History) : History :=
  empty history.capacity

/-- The cost of all entries. -/
def totalCost (history : History) : Int :=
  history.entries.foldr (fun file total => file.2.foldr (·.sizeCost + ·) total) 0

end History

end EditGate

import EditGate.Proofs.Loading
import EditGate.Proofs.Nesting
import Mathlib

/-!
# What a history file does to a gate

A gate that finds a history file takes over what the file describes, or keeps the history that it
has. Which of the two it is follows from the octets alone: these have to write a text, the text has
to be JSON, and the data have to hold the entries of each file in turn. Three kinds of files are
neither taken over nor passed over: those whose octets write no text, those that nest too deeply,
and those in which a number that no entry can hold comes before any other trouble.
-/

namespace EditGate

/-! ## Reading in turn -/

section InTurn

variable {α β ε δ : Type} {isRead : α → β → Prop} {unread : α → Prop} {read : α → Except ε β}

/-- Of items that are gone through in turn, the first that is not read is of a given kind. -/
inductive FirstUnread (isRead : α → β → Prop) (unread : α → Prop) : List α → Prop where
  | here {item : α} (trouble : unread item) (rest : List α) :
      FirstUnread isRead unread (item :: rest)
  | later {item : α} {result : β} {rest : List α} (fine : isRead item result)
      (behind : FirstUnread isRead unread rest) : FirstUnread isRead unread (item :: rest)

theorem firstUnread_cons_iff {item : α} {rest : List α} :
    FirstUnread isRead unread (item :: rest) ↔
      unread item ∨ (∃ result, isRead item result) ∧ FirstUnread isRead unread rest := by
  constructor
  · intro first
    cases first with
    | here trouble => exact .inl trouble
    | later fine behind => exact .inr ⟨⟨_, fine⟩, behind⟩
  · intro first
    rcases first with trouble | ⟨⟨result, fine⟩, behind⟩
    · exact .here trouble rest
    · exact .later fine behind

theorem mapM_eq_ok_iff {items : List α} {results : List β} :
    items.mapM read = .ok results ↔ List.Forall₂ (read · = .ok ·) items results := by
  induction items generalizing results with
  | nil => simp [pure, Except.pure, eq_comm]
  | cons item items ih =>
      rw [List.mapM_cons, List.forall₂_cons_left_iff]
      cases first : read item with
      | error cause => simp [bind, Except.bind]
      | ok result =>
          cases others : items.mapM read with
          | error cause => simp [bind, Except.bind, ← ih, others]
          | ok more => simp [bind, Except.bind, pure, Except.pure, ← ih, others, eq_comm]

theorem mapM_eq_error_iff {items : List α} {cause : ε} :
    items.mapM read = .error cause ↔
      FirstUnread (read · = .ok ·) (read · = .error cause) items := by
  induction items with
  | nil =>
      refine ⟨fun failed => ?_, fun first => ?_⟩
      · cases failed
      · cases first
  | cons item items ih =>
      rw [List.mapM_cons, firstUnread_cons_iff, ← ih]
      cases first : read item with
      | error other => simp [bind, Except.bind]
      | ok result =>
          cases others : items.mapM read with
          | error other => simp [bind, Except.bind]
          | ok more => simp [bind, Except.bind, pure, Except.pure]

theorem FirstUnread.exists_unread {items : List α} (first : FirstUnread isRead unread items) :
    ∃ item, unread item := by
  induction first with
  | here trouble => exact ⟨_, trouble⟩
  | later fine behind ih => exact ih

theorem mapError_eq_ok_iff {change : ε → δ} {result : Except ε α} {value : α} :
    result.mapError change = .ok value ↔ result = .ok value := by
  cases result <;> simp [Except.mapError]

theorem mapError_eq_error_iff {change : ε → δ} {result : Except ε α} {cause : δ} :
    result.mapError change = .error cause ↔
      ∃ other, result = .error other ∧ change other = cause := by
  cases result <;> simp [Except.mapError]

end InTurn

/-! ## Entries -/

/-- The values that are met when a value is gone through. An empty text or object has none. -/
inductive Value.Lists : Value → List Value → Prop where
  | items (items : List Value) : Lists (.list items) items
  | noText : Lists (.str "") []
  | noField : Lists (.object []) []

theorem Value.toFloat_eq_outOfRange_iff {value : Value} :
    value.toFloat = .error .outOfRange ↔
      ∃ number, value = .int number ∧ Binary64.ofInt? number = none := by
  cases value with
  | int number =>
      rw [toFloat]
      split
      next found => simp [found]
      next found => simp [found]
  | str text =>
      rw [toFloat]
      split <;> simp
  | _ => simp [toFloat]

theorem Value.toInt_eq_outOfRange_iff {value : Value} :
    value.toInt = .error .outOfRange ↔ ∃ negative, value = .float (.infinite negative) := by
  cases value with
  | float number => cases number <;> simp [toInt]
  | str text =>
      rw [toInt]
      split <;> simp
  | _ => simp [toInt]

namespace History

/-- Data of an entry whose time or whose cost is a number beyond all bounds, with no other trouble
before it. -/
def Entry.Overflows (data : Value) : Prop :=
  ∃ time, data.field? "timestamp" = some time ∧
    ((∃ number, time = .int number ∧ Binary64.ofInt? number = none) ∨
      (∃ timestamp, time.toFloat = .ok timestamp) ∧
      (∃ diff recipe, data.field? "reverse_diff" = some diff ∧
        Diff.Recipe.ofValue diff = .ok recipe) ∧
      ∃ negative, data.field? "size_cost" = some (.float (.infinite negative)))

theorem Entry.ofValue_eq_outOfRange_iff {data : Value} :
    Entry.ofValue data = .error (.number .outOfRange) ↔ Entry.Overflows data := by
  cases data with
  | object fields =>
      rw [Overflows, ofValue]
      simp only [required]
      cases timed : Value.field? "timestamp" (.object fields) with
      | none => simp [bind, Except.bind]
      | some time =>
      simp only [bind, Except.bind, Option.some.injEq, exists_eq_left']
      rw [← Value.toFloat_eq_outOfRange_iff]
      cases time.toFloat with
      | error cause => simp [Except.mapError]
      | ok timestamp =>
      simp only [Except.mapError]
      cases Value.field? "reverse_diff" (.object fields) with
      | none => simp
      | some diff =>
      cases read : Diff.Recipe.ofValue diff with
      | error cause => simp [read]
      | ok recipe =>
      have cost : (∃ negative, Value.field? "size_cost" (.object fields) =
          some (.float (.infinite negative))) ↔
          ((Value.field? "size_cost" (.object fields)).getD (.int 0)).toInt =
            .error .outOfRange := by
        rw [Value.toInt_eq_outOfRange_iff]
        cases Value.field? "size_cost" (.object fields) <;> simp
      rw [cost]
      cases ((Value.field? "size_cost" (.object fields)).getD (.int 0)).toInt with
      | error cause => simp [read]
      | ok sizeCost =>
      -- what is left to read is the edit, whose troubles are not those of a number
      cases Edit.ofValue (Value.fieldD "edit" (.object fields)) <;> simp [read] <;> split <;> simp
  | _ => simp [ofValue, Overflows, Value.field?]

theorem ArchiveError.ofEntry_eq_outOfRange_iff {cause : Entry.Error} :
    ofEntry cause = .outOfRange ↔ cause = .number .outOfRange := by
  fun_cases ofEntry cause <;> simp_all

/-- The errors that come of reading a text, and not of the data in it. -/
def ArchiveError.IsOfText (cause : ArchiveError) : Prop :=
  cause = .tooDeep ∨ cause = .halfPair

theorem ArchiveError.not_isOfText_ofEntry (cause : Entry.Error) : ¬ (ofEntry cause).IsOfText := by
  fun_cases ofEntry cause <;> simp [IsOfText]

theorem ArchiveError.IsOfText.ne_unreadable {cause : ArchiveError} (ofText : cause.IsOfText) :
    cause ≠ .unreadable := by
  rcases ofText with rfl | rfl <;> simp

/-- Whatever is gone through for entries is read entry by entry. -/
theorem readEntries_of_lists {value : Value} {items : List Value} (lists : value.Lists items) :
    readEntries value = items.mapM fun item => (Entry.ofValue item).mapError .ofEntry := by
  cases lists <;> rfl

theorem readEntries_of_not_lists {value : Value} (unlisted : ¬∃ items, value.Lists items) :
    readEntries value = .error .unreadable := by
  cases value with
  | list items => exact absurd ⟨items, .items items⟩ unlisted
  | str text =>
      rw [readEntries, if_neg]
      intro isEmpty
      rw [String.isEmpty_iff] at isEmpty
      exact unlisted ⟨[], isEmpty ▸ .noText⟩
  | object fields =>
      rw [readEntries, if_neg]
      intro isEmpty
      rw [List.isEmpty_iff] at isEmpty
      exact unlisted ⟨[], isEmpty ▸ .noField⟩
  | _ => rfl

/-- Apart from a value that cannot be gone through, reading ends as it does for the items. -/
theorem readEntries_eq_iff {value : Value} {outcome : Except ArchiveError (List Entry)}
    (other : outcome ≠ .error .unreadable) :
    readEntries value = outcome ↔ ∃ items, value.Lists items ∧
      (items.mapM fun item => (Entry.ofValue item).mapError .ofEntry) = outcome := by
  constructor
  · intro read
    by_cases listed : ∃ items, value.Lists items
    · obtain ⟨items, lists⟩ := listed
      rw [readEntries_of_lists lists] at read
      exact ⟨items, lists, read⟩
    · rw [readEntries_of_not_lists listed] at read
      exact absurd read.symm other
  · rintro ⟨items, lists, read⟩
    rw [readEntries_of_lists lists, read]

theorem readEntries_eq_ok_iff {value : Value} {entries : List Entry} :
    readEntries value = .ok entries ↔
      ∃ items, value.Lists items ∧ List.Forall₂ (Entry.ofValue · = .ok ·) items entries := by
  rw [readEntries_eq_iff (by simp)]
  simp only [mapM_eq_ok_iff, mapError_eq_ok_iff]

theorem readEntries_eq_outOfRange_iff {value : Value} :
    readEntries value = .error .outOfRange ↔
      ∃ items, value.Lists items ∧ FirstUnread (Entry.ofValue · = .ok ·) Entry.Overflows items := by
  rw [readEntries_eq_iff (by simp)]
  simp only [mapM_eq_error_iff, mapError_eq_ok_iff, mapError_eq_error_iff,
    ArchiveError.ofEntry_eq_outOfRange_iff, exists_eq_right, Entry.ofValue_eq_outOfRange_iff]

theorem readEntries_ne_of_isOfText {cause : ArchiveError} (ofText : cause.IsOfText)
    (value : Value) : readEntries value ≠ .error cause := by
  intro failed
  rw [readEntries_eq_iff (by simpa using ofText.ne_unreadable)] at failed
  obtain ⟨items, -, failed⟩ := failed
  obtain ⟨item, failed⟩ := (mapM_eq_error_iff.1 failed).exists_unread
  obtain ⟨trouble, -, rfl⟩ := mapError_eq_error_iff.1 failed
  exact ArchiveError.not_isOfText_ofEntry trouble ofText

/-! ## Files -/

/-- The data of a file list the data of its entries. -/
def ListsEntries (data : Value) (items : List Value) : Prop :=
  ∃ fields, data = .object fields ∧
    ((Assoc.find? "entries" fields).getD (.list [])).Lists items

/-- A file with the entries that its data list, as many as fit. -/
def IsFile (capacity : Capacity) (file : String × Value) (kept : String × List Entry) : Prop :=
  kept.1 = file.1 ∧ capacity.isWhole = true ∧ ∃ items entries, ListsEntries file.2 items ∧
    List.Forall₂ (Entry.ofValue · = .ok ·) items entries ∧ kept.2 = capacity.keep entries

/-- A file of which an entry holds a number beyond all bounds, with no other trouble before it. -/
def FileOverflows (file : String × Value) : Prop :=
  ∃ items, ListsEntries file.2 items ∧
    FirstUnread (Entry.ofValue · = .ok ·) Entry.Overflows items

/-- Reads the entries of a file, cut to the capacity. -/
def readFile (capacity : Capacity) : String × Value → Except ArchiveError (String × List Entry)
  | (key, .object fields) => do
      let entries ← readEntries ((Assoc.find? "entries" fields).getD (.list []))
      if capacity.isWhole then .ok (key, capacity.keep entries) else .error .unreadable
  | _ => .error .unreadable

theorem readFiles_eq_mapM (capacity : Capacity) (files : List (String × Value)) :
    readFiles capacity files = files.mapM (readFile capacity) := by
  induction files with
  | nil => rfl
  | cons file files ih =>
      obtain ⟨key, data⟩ := file
      rw [List.mapM_cons, ← ih]
      cases data with
      | object fields =>
          rw [readFiles, readFile]
          cases readEntries ((Assoc.find? "entries" fields).getD (.list [])) with
          | error cause => rfl
          | ok entries => cases capacity.isWhole <;> rfl
      | _ => rfl

theorem readFile_eq_ok_iff {capacity : Capacity} {file : String × Value}
    {kept : String × List Entry} :
    readFile capacity file = .ok kept ↔ IsFile capacity file kept := by
  obtain ⟨key, data⟩ := file
  obtain ⟨key', entries'⟩ := kept
  cases data with
  | object fields =>
      have read : (∃ items entries, ListsEntries (.object fields) items ∧
          List.Forall₂ (Entry.ofValue · = .ok ·) items entries ∧ entries' = capacity.keep entries) ↔
          ∃ entries, readEntries ((Assoc.find? "entries" fields).getD (.list [])) = .ok entries ∧
            entries' = capacity.keep entries := by
        simp only [ListsEntries, Value.object.injEq, exists_eq_left', readEntries_eq_ok_iff]
        grind
      rw [IsFile, read, readFile]
      cases readEntries ((Assoc.find? "entries" fields).getD (.list [])) with
      | error cause => simp [bind, Except.bind]
      | ok entries => cases capacity.isWhole <;> simp [bind, Except.bind, eq_comm]
  | _ => simp [readFile, IsFile, ListsEntries]

theorem isFile_eq (capacity : Capacity) :
    IsFile capacity = fun file kept => readFile capacity file = .ok kept :=
  funext fun _ => funext fun _ => propext readFile_eq_ok_iff.symm

/-- Apart from data of another shape, a file fails as its entries do. -/
theorem readFile_eq_error_iff {capacity : Capacity} {file : String × Value} {cause : ArchiveError}
    (other : cause ≠ .unreadable) :
    readFile capacity file = .error cause ↔ ∃ fields, file.2 = .object fields ∧
      readEntries ((Assoc.find? "entries" fields).getD (.list [])) = .error cause := by
  obtain ⟨key, data⟩ := file
  cases data with
  | object fields =>
      simp only [Value.object.injEq, exists_eq_left']
      rw [readFile]
      cases readEntries ((Assoc.find? "entries" fields).getD (.list [])) with
      | error cause => simp [bind, Except.bind]
      | ok entries => cases capacity.isWhole <;> simp [bind, Except.bind, other.symm]
  | _ => simp [readFile, other.symm]

theorem readFile_eq_outOfRange_iff {capacity : Capacity} {file : String × Value} :
    readFile capacity file = .error .outOfRange ↔ FileOverflows file := by
  rw [readFile_eq_error_iff (by simp)]
  simp only [readEntries_eq_outOfRange_iff, FileOverflows, ListsEntries]
  grind

theorem readFile_ne_of_isOfText {cause : ArchiveError} (ofText : cause.IsOfText)
    (capacity : Capacity) (file : String × Value) : readFile capacity file ≠ .error cause := by
  intro failed
  obtain ⟨fields, -, unread⟩ := (readFile_eq_error_iff ofText.ne_unreadable).1 failed
  exact readEntries_ne_of_isOfText ofText _ unread

/-! ## Histories -/

/-- Data that hold the data of some files. -/
def HoldsFiles (value : Value) (files : List (String × Value)) : Prop :=
  ∃ fields, value = .object fields ∧
    (Assoc.find? "files" fields).getD (.object []) = .object files

/-- The history that data describe to a reader of a given capacity: the files with their entries,
and the heads of those that have one. -/
structure IsContent (capacity : Capacity) (value : Value) (history : History) : Prop where
  capacity_eq : history.capacity = capacity
  files : ∃ files, HoldsFiles value files ∧ List.Forall₂ (IsFile capacity) files history.entries ∧
    history.heads = readHeads files

/-- Data of which a file holds a number beyond all bounds, with no other trouble before it. -/
def Overflows (capacity : Capacity) (value : Value) : Prop :=
  ∃ files, HoldsFiles value files ∧ FirstUnread (IsFile capacity) FileOverflows files

theorem HoldsFiles.restoreValue_eq_ok_iff {value : Value} {files : List (String × Value)}
    (holds : HoldsFiles value files) {history next : History} :
    history.restoreValue value = .ok next ↔ next.capacity = history.capacity ∧
      files.mapM (readFile history.capacity) = .ok next.entries ∧ next.heads = readHeads files := by
  obtain ⟨fields, rfl, found⟩ := holds
  rw [← readFiles_eq_mapM]
  constructor
  · intro restored
    simp only [restoreValue, found] at restored
    split at restored
    next entries read =>
      cases restored
      exact ⟨rfl, read, rfl⟩
    next => cases restored
  · rintro ⟨capacity, read, heads⟩
    exact restoreValue_of_readFiles found capacity read heads

theorem HoldsFiles.restoreValue_eq_error_iff {value : Value} {files : List (String × Value)}
    (holds : HoldsFiles value files) {history : History} {cause : ArchiveError} :
    history.restoreValue value = .error cause ↔
      files.mapM (readFile history.capacity) = .error cause := by
  obtain ⟨fields, rfl, found⟩ := holds
  rw [← readFiles_eq_mapM]
  simp only [restoreValue, found]
  split
  next entries read => simp [read]
  next other read => simp [read]

theorem restoreValue_of_not_holdsFiles {value : Value} (fileless : ¬∃ files, HoldsFiles value files)
    (history : History) : history.restoreValue value = .error .unreadable := by
  cases value with
  | object fields =>
      rw [restoreValue]
      split
      next files found => exact absurd ⟨files, fields, rfl, found⟩ fileless
      next => rfl
  | _ => rfl

/-- Only data that hold files are anything else than unreadable. -/
theorem exists_holdsFiles {history : History} {value : Value}
    {outcome : Except ArchiveError History} (restored : history.restoreValue value = outcome)
    (other : outcome ≠ .error .unreadable) : ∃ files, HoldsFiles value files := by
  by_contra fileless
  rw [restoreValue_of_not_holdsFiles fileless] at restored
  exact other restored.symm

theorem restoreValue_eq_error_iff {history : History} {value : Value} {cause : ArchiveError}
    (other : cause ≠ .unreadable) :
    history.restoreValue value = .error cause ↔ ∃ files, HoldsFiles value files ∧
      FirstUnread (IsFile history.capacity) (readFile history.capacity · = .error cause) files := by
  simp only [isFile_eq, ← mapM_eq_error_iff]
  constructor
  · intro failed
    obtain ⟨files, holds⟩ := exists_holdsFiles failed (by simpa using other)
    exact ⟨files, holds, holds.restoreValue_eq_error_iff.1 failed⟩
  · rintro ⟨files, holds, failed⟩
    exact holds.restoreValue_eq_error_iff.2 failed

theorem restoreValue_eq_ok_iff {history restored : History} {value : Value} :
    history.restoreValue value = .ok restored ↔ IsContent history.capacity value restored := by
  constructor
  · intro read
    obtain ⟨files, holds⟩ := exists_holdsFiles read (by simp)
    obtain ⟨capacity, entries, heads⟩ := holds.restoreValue_eq_ok_iff.1 read
    rw [mapM_eq_ok_iff, ← isFile_eq] at entries
    exact ⟨capacity, files, holds, entries, heads⟩
  · rintro ⟨capacity, files, holds, read, heads⟩
    rw [isFile_eq, ← mapM_eq_ok_iff] at read
    exact holds.restoreValue_eq_ok_iff.2 ⟨capacity, read, heads⟩

theorem restoreValue_eq_outOfRange_iff {history : History} {value : Value} :
    history.restoreValue value = .error .outOfRange ↔ Overflows history.capacity value := by
  rw [restoreValue_eq_error_iff (by simp)]
  simp only [readFile_eq_outOfRange_iff]
  rfl

theorem restoreValue_ne_of_isOfText {cause : ArchiveError} (ofText : cause.IsOfText)
    (history : History) (value : Value) : history.restoreValue value ≠ .error cause := by
  intro failed
  rw [restoreValue_eq_error_iff ofText.ne_unreadable] at failed
  obtain ⟨files, -, failed⟩ := failed
  obtain ⟨file, failed⟩ := failed.exists_unread
  exact readFile_ne_of_isOfText ofText history.capacity file failed

/-- No file of a history that data describe has more entries than fit. -/
theorem IsContent.length_entriesOf_le {capacity : Capacity} {value : Value} {history : History}
    (content : IsContent capacity value history) (key : String) :
    ∀ most ∈ capacity.bound, (history.entriesOf key).length ≤ most :=
  content.capacity_eq ▸ history.holds_entriesOf key

/-- The history that the octets of a file describe to a reader of a given capacity, which allows
for some nesting. -/
def IsStored (nesting : ℕ) (octets : List UInt8) (capacity : Capacity) (history : History) : Prop :=
  ∃ text value, Utf8.encode text = octets ∧
    Value.ofJsonChars nesting (Utf8.normalizeBreaks text) = .ok value ∧
    IsContent capacity value history

/-- The octets of a file that are no text, or a text in which no string is met that has half of a
pair alone. -/
def HoldsNoHalf (nesting : ℕ) (octets : List UInt8) : Prop :=
  ∀ text, Utf8.encode text = octets →
    Value.ofJsonChars nesting (Utf8.normalizeBreaks text) ≠ .error .halfPair

variable {history restored : History} {nesting : ℕ} {text : List Char}

theorem restore_eq_ok_iff :
    history.restore nesting text = .ok restored ↔ ∃ value,
      Value.ofJsonChars nesting text = .ok value ∧ IsContent history.capacity value restored := by
  rw [restore]
  split
  next value read => simp [read, restoreValue_eq_ok_iff]
  all_goals next read => simp [read]

theorem restore_eq_outOfRange_iff :
    history.restore nesting text = .error .outOfRange ↔ ∃ value,
      Value.ofJsonChars nesting text = .ok value ∧ Overflows history.capacity value := by
  rw [restore]
  split
  next value read => simp [read, restoreValue_eq_outOfRange_iff]
  all_goals next read => simp [read]

theorem restore_eq_tooDeep_iff :
    history.restore nesting text = .error .tooDeep ↔
      Value.ofJsonChars nesting text = .error .tooDeep := by
  rw [restore]
  split
  next value read => simp [read, restoreValue_ne_of_isOfText (.inl rfl)]
  next read => simp [read]
  next read => simp [read]
  next cause shallow _ read =>
    simp only [read, Except.error.injEq, reduceCtorEq, false_iff]
    exact shallow

theorem restore_eq_halfPair_iff :
    history.restore nesting text = .error .halfPair ↔
      Value.ofJsonChars nesting text = .error .halfPair := by
  rw [restore]
  split
  next value read => simp [read, restoreValue_ne_of_isOfText (.inr rfl)]
  next read => simp [read]
  next read => simp [read]
  next cause _ whole read =>
    simp only [read, Except.error.injEq, reduceCtorEq, false_iff]
    exact whole

end History

/-- Changing line breaks touches no bracket. -/
theorem Utf8.openings_normalizeBreaks (text : List Char) :
    Value.openings (normalizeBreaks text) = Value.openings text := by
  rw [Value.openings, Value.openings]
  fun_induction normalizeBreaks text with
  | case1 => rfl
  | case2 rest ih =>
      rw [List.countP_cons_of_neg (by decide), List.countP_cons_of_neg (by decide),
        List.countP_cons_of_neg (by decide), ih]
  | case3 char rest _ ih =>
      rw [List.countP_cons, List.countP_cons, ih]
      split
      next isReturn => rw [isReturn]; rfl
      next => rfl

namespace Gate

theorem load_of_decode_eq_error {gate : Gate} {disk : Disk} {octets : List UInt8}
    {fault : Utf8.Fault} (found : disk.lookup [] gate.historyRoute = .ok (.file octets))
    (broken : Utf8.decode octets = .error fault) (nesting : ℕ) :
    gate.load nesting disk = .error (.undecodable fault) := by
  have read : disk.read [] gate.historyRoute = .ok octets := Disk.read_eq_ok_iff.2 found
  simp only [load, holds_of_lookup found, read, broken, Except.mapError, bind, Except.bind, if_true]

theorem takeOver_eq_halfPair_iff {gate : Gate} {outcome : Except History.ArchiveError History} :
    gate.takeOver outcome = .error .halfPair ↔ outcome = .error .halfPair := by
  cases outcome with
  | ok history => simp [takeOver]
  | error cause => cases cause <;> simp [takeOver]

/-- Half of a pair is only met in a history file that has one. -/
theorem exists_not_holdsNoHalf {gate : Gate} {nesting : ℕ} {disk : Disk}
    (failed : gate.load nesting disk = .error .halfPair) :
    ∃ octets, disk.lookup [] gate.historyRoute = .ok (.file octets) ∧
      ¬ History.HoldsNoHalf nesting octets := by
  simp only [load, bind, Except.bind] at failed
  cases held : disk.holds [] gate.historyRoute with
  | error cause => simp [held, Except.mapError] at failed
  | ok stands =>
  cases stands with
  | false => simp [held, Except.mapError] at failed
  | true =>
  cases read : disk.read [] gate.historyRoute with
  | error cause => simp [held, read, Except.mapError] at failed
  | ok octets =>
  cases decoded : Utf8.decode octets with
  | error fault => simp [held, read, decoded, Except.mapError] at failed
  | ok text =>
  simp only [held, read, decoded, Except.mapError, if_true] at failed
  refine ⟨octets, Disk.read_eq_ok_iff.1 read, fun whole => ?_⟩
  exact whole text (Utf8.decode_eq_ok_iff.1 decoded)
    (History.restore_eq_halfPair_iff.1 (takeOver_eq_halfPair_iff.1 failed))

/-- A gate that finds a history file takes over what the file describes to it, at most as many
entries of each file as it has room for, or keeps its history. It does neither exactly if the octets
write no text, if the text nests more deeply than is allowed for, or if a number beyond all bounds
is met. This is so for every bound on the nesting, and for every file in which no string has half of
a pair alone. -/
theorem load_account (gate : Gate) (nesting : ℕ) (disk : Disk) (octets : List UInt8)
    (found : disk.lookup [] gate.historyRoute = .ok (.file octets))
    (whole : History.HoldsNoHalf nesting octets) :
    (∀ after, gate.load nesting disk = .ok (after, true) ↔
      ∃ history, History.IsStored nesting octets gate.history.capacity history ∧
        after = { gate with history := history }) ∧
    (∀ history, History.IsStored nesting octets gate.history.capacity history →
      history.capacity = gate.history.capacity ∧
        ∀ key, ∀ most ∈ gate.history.capacity.bound, (history.entriesOf key).length ≤ most) ∧
    (∀ after, gate.load nesting disk = .ok (after, false) → after = gate) ∧
    ((∃ fault, gate.load nesting disk = .error (.undecodable fault)) ↔
      ∀ text, Utf8.encode text ≠ octets) ∧
    (gate.load nesting disk = .error .tooDeep ↔ ∃ text, Utf8.encode text = octets ∧
      Value.ofJsonChars nesting (Utf8.normalizeBreaks text) = .error .tooDeep) ∧
    (∀ text, Utf8.encode text = octets → gate.load nesting disk = .error .tooDeep →
      nesting < Value.openings text) ∧
    (gate.load nesting disk = .error .outOfRange ↔ ∃ text value, Utf8.encode text = octets ∧
      Value.ofJsonChars nesting (Utf8.normalizeBreaks text) = .ok value ∧
      History.Overflows gate.history.capacity value) ∧
    (∀ cause, gate.load nesting disk ≠ .error (.disk cause)) ∧
    gate.load nesting disk ≠ .error .halfPair := by
  refine and_left_comm.1 ⟨fun history stored => ?_, ?_⟩
  · obtain ⟨text, value, -, -, content⟩ := stored
    exact ⟨content.capacity_eq, content.length_entriesOf_le⟩
  by_cases written : ∃ text, Utf8.encode text = octets
  · obtain ⟨text, rfl⟩ := written
    have bracketed : gate.history.restore nesting (Utf8.normalizeBreaks text) = .error .tooDeep →
        nesting < Value.openings text := by
      intro deep
      rw [← Utf8.openings_normalizeBreaks]
      exact Value.lt_openings_of_tooDeep (History.restore_eq_tooDeep_iff.1 deep)
    have paired : gate.history.restore nesting (Utf8.normalizeBreaks text) ≠ .error .halfPair :=
      fun half => whole text rfl (History.restore_eq_halfPair_iff.1 half)
    simp only [History.IsStored, Utf8.encode_injective.eq_iff, exists_and_left, exists_eq_left,
      ← History.restore_eq_ok_iff, ← History.restore_eq_outOfRange_iff,
      ← @History.restore_eq_tooDeep_iff gate.history]
    rw [load_of_lookup found]
    generalize gate.history.restore nesting (Utf8.normalizeBreaks text) = outcome
      at bracketed paired ⊢
    cases outcome with
    | ok history => simp [takeOver, eq_comm]
    | error cause =>
        cases cause with
        | halfPair => exact absurd rfl paired
        | _ => simp [takeOver, bracketed]
  · rw [not_exists] at written
    cases decoded : Utf8.decode octets with
    | ok text => exact absurd (Utf8.decode_eq_ok_iff.1 decoded) (written text)
    | error fault => simp [History.IsStored, load_of_decode_eq_error found decoded, written]

namespace LoadSample

/-- A gate of the standard settings. -/
def gate : Gate where
  workspace := .ofPath ["w"]
  settings := .standard
  policy := Settings.standard.policy?.get rfl
  history := .ofSettings .standard

/-- A workspace whose history file holds some octets. -/
def disk (octets : List UInt8) : Disk :=
  ⟨[(["w"], .directory), (["w", ".luaguard"], .directory),
    (["w", ".luaguard", "history.json"], .file octets)]⟩

theorem lookup_disk (octets : List UInt8) :
    (disk octets).lookup [] gate.historyRoute = .ok (.file octets) := by
  rfl

/-- The data of an entry. -/
def entryData : Value :=
  .object [("timestamp", .bool true), ("reverse_diff", .object [])]

/-- Data of one file with a head and an entry. -/
def data : Value :=
  .object [("files", .object [("main.lua", .object [("head", .str "a"),
    ("entries", .list [entryData])])])]

theorem isPlain_data : data.IsPlain 6 := by
  have plainEntry : entryData.IsPlain 2 := by
    refine .object (by decide) ?_
    simp only [List.forall_mem_cons]
    exact ⟨.bool 1 _, .object .nil (List.forall_mem_nil _), List.forall_mem_nil _⟩
  have plainFile :
      Value.IsPlain 4 (.object [("head", .str "a"), ("entries", .list [entryData])]) := by
    refine .object (by decide) ?_
    simp only [List.forall_mem_cons]
    exact ⟨.str 3 _, .list (List.forall_mem_singleton.2 plainEntry), List.forall_mem_nil _⟩
  refine .object (by decide) (List.forall_mem_singleton.2 ?_)
  exact .object (by decide) (List.forall_mem_singleton.2 plainFile)

/-- The history that the data describe. -/
def described : History where
  capacity := gate.history.capacity
  entries := [("main.lua", [⟨.finite false 4503599627370496 (-52), ⟨[], [], [], false⟩, 0, none⟩])]
  heads := [("main.lua", .str "a")]
  fits := List.forall_mem_singleton.2 (History.Capacity.holds_singleton _ _)

theorem isContent_described : History.IsContent gate.history.capacity data described := by
  refine ⟨rfl, _, ⟨_, rfl, rfl⟩, .cons ?_ .nil, rfl⟩
  exact ⟨rfl, rfl, _, _, ⟨_, rfl, .items _⟩, .cons rfl .nil, rfl⟩

/-- The octets of the data. -/
def octets : List UInt8 :=
  Utf8.encode (data.json (.indented 0))

theorem read_octets :
    Value.ofJsonChars 6 (Utf8.normalizeBreaks (data.json (.indented 0))) = .ok data := by
  rw [Utf8.normalizeBreaks_of_isSafe (isPlain_data.isSafe_json _),
    Value.ofJsonChars_json isPlain_data]

theorem isStored_described : History.IsStored 6 octets gate.history.capacity described :=
  ⟨_, data, rfl, read_octets, isContent_described⟩

theorem holdsNoHalf_octets : History.HoldsNoHalf 6 octets := by
  intro text same
  rw [Utf8.encode_injective same, read_octets]
  nofun

end LoadSample

/-- A file is loaded that describes a history. -/
theorem load_account_described :
    (LoadSample.disk LoadSample.octets).lookup [] LoadSample.gate.historyRoute =
      .ok (.file LoadSample.octets) ∧
    History.HoldsNoHalf 6 LoadSample.octets ∧
    LoadSample.gate.load 6 (LoadSample.disk LoadSample.octets) =
      .ok ({ LoadSample.gate with history := LoadSample.described }, true) := by
  have found := LoadSample.lookup_disk LoadSample.octets
  refine ⟨found, LoadSample.holdsNoHalf_octets,
    ((load_account _ _ _ _ found LoadSample.holdsNoHalf_octets).1 _).2 ?_⟩
  exact ⟨LoadSample.described, LoadSample.isStored_described, rfl⟩

/-- **A history file that is no text.** Loading fails altogether. -/
theorem load_fails_on_broken_octets :
    (LoadSample.disk [0xff]).lookup [] LoadSample.gate.historyRoute = .ok (.file [0xff]) ∧
    ∀ nesting, LoadSample.gate.load nesting (LoadSample.disk [0xff]) =
      .error (.undecodable ⟨0, [0xff], .startByte⟩) := by
  have found := LoadSample.lookup_disk [0xff]
  refine ⟨found, load_of_decode_eq_error found ?_⟩
  simp [Utf8.decode, Utf8.decodeFrom, Utf8.lead?]

end Gate

end EditGate

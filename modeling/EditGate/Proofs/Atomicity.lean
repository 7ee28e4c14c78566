import EditGate.Proofs.Restoring
import Mathlib

/-!
# Accesses that give up

A history is changed in place. An access to it looks things up, computes, may give up at many
points, and writes piece by piece; in between, a file may have an entry too many. Here each access
is written out as a procedure of such steps on what is in memory, in which what was written stays
even if the procedure gives up later on. Every procedure ends as the function on histories that the
program runs, and one that gives up leaves the very history that it found.

All procedures look first and write last, and nothing that comes after the first write fails. For
taking edits back this needs an argument, since the entries are looked up and counted off once more
before they are dropped: the number of steps has been checked against them by then.
-/

namespace EditGate.History

/-! ## Steps -/

/-- A history in memory, while it is changed. -/
@[ext] structure Store where
  capacity : Capacity
  entries : Assoc String (List Entry)
  heads : Assoc String Value

/-- A history as it is in memory. -/
def store (history : History) : Store :=
  ⟨history.capacity, history.entries, history.heads⟩

theorem store_inj {first second : History} : first.store = second.store ↔ first = second := by
  rw [History.ext_iff, Store.ext_iff]
  rfl

namespace Store

/-- The entries of a file, the latest first. -/
def entriesOf (store : Store) (key : String) : List Entry :=
  (Assoc.find? key store.entries).getD []

/-- Sees to it that a file has a list of entries. -/
def ensureFile (key : String) (store : Store) : Store :=
  match Assoc.find? key store.entries with
  | some _ => store
  | none => { store with entries := Assoc.put key [] store.entries }

/-- Changes the entries of a file. -/
def changeEntries (key : String) (change : List Entry → List Entry) (store : Store) : Store :=
  { store with entries := Assoc.put key (change (store.entriesOf key)) store.entries }

/-- Sets the head of a file. -/
def setHead (key : String) (head : Value) (store : Store) : Store :=
  { store with heads := Assoc.put key head store.heads }

end Store

theorem entriesOf_store (history : History) (key : String) :
    history.store.entriesOf key = history.entriesOf key :=
  rfl

theorem startFrom?_store (history : History) (key : String) (current : Value) :
    startFrom? (Assoc.find? key history.store.heads) current = history.start? key current :=
  rfl

/-- Why an access gives up. -/
inductive AccessError where
  /-- An edit is not recorded. -/
  | record (cause : RecordError)
  /-- Edits cannot be taken back. -/
  | undo (cause : Error)
  /-- A file is not known. -/
  | unknownFile (key : String)
  /-- A stored history cannot be read. -/
  | archive (cause : ArchiveError)

/-- Steps that may change the history and give up. What was changed before stays. -/
abbrev Procedure := EStateM AccessError Store

namespace Procedure

variable {α β ε : Type}

/-- A computation that may fail. -/
def attempt (error : ε → AccessError) : Except ε α → Procedure α
  | .ok value => pure value
  | .error cause => throw (error cause)

/-- Something that may be missing. -/
def need (found : Option α) (error : AccessError) : Procedure α :=
  match found with
  | some value => pure value
  | none => throw error

/-- Gives up if something is the case. -/
def refuse (bad : Bool) (error : AccessError) : Procedure Unit :=
  if bad then throw error else pure ()

/-- The value that becomes the head: the text after the edit as it is given, or else the one that
the edit leads to. -/
def headAfter (before : Value) (edit : Option Edit) (after : Value) : Procedure Value :=
  match after, edit with
  | .null, none => throw (.record .noEdit)
  | .null, some edit => do
      let text ← attempt (.record ∘ .text) (textOf before)
      let new ← attempt (.record ∘ .edit) (edit.apply text)
      return .str (String.ofList new)
  | after, _ => return after

/-- Drops the last entry of a file if there are too many. -/
def makeRoom (key : String) : Procedure Unit := do
  let store ← get
  if store.capacity.bound.any (· < (store.entriesOf key).length) then
    modify (Store.changeEntries key List.dropLast)

/-- Enters an entry of a file, and its head. -/
def enter (key : String) (entry : Entry) (head : Value) : Procedure Unit := do
  modify (Store.ensureFile key)
  modify (Store.changeEntries key (entry :: ·))
  makeRoom key
  modify (Store.setHead key head)

/-- Records the change of a text to the one that the head stands for. -/
def recordChange (now : Binary64) (key : String) (before : Value) (edit : Option Edit)
    (head : Value) : Procedure Unit := do
  let old ← attempt (.record ∘ .text) (textOf before)
  let new ← attempt (.record ∘ .text) (textOf head)
  enter key (Entry.ofTexts now old new edit) head

/-- Records an edit. -/
def record (now : Binary64) (key : String) (before : Value) (edit : Option Edit) (after : Value) :
    Procedure Unit := do
  let head ← headAfter before edit after
  recordChange now key before edit head

/-- Takes edits of a text back, one entry after the other. -/
def replay (text : List Char) : List Entry → Procedure (List Char)
  | [] => return text
  | entry :: rest => do
      let earlier ← attempt (.undo ∘ .recipe) (entry.undo text)
      replay earlier rest

/-- Works out the text before the latest edits of a file. -/
def preview (key : String) (steps current : Value) : Procedure (List Char) := do
  let number ← need steps.number? (.undo .stepsNotNumber)
  refuse (number.less (.whole 1)) (.undo .stepsTooFew)
  let entries := (← get).entriesOf key
  refuse (Number.less (.whole entries.length) number)
    (.undo (.insufficient key steps entries.length))
  let start ← need (startFrom? (Assoc.find? key (← get).heads) current) (.undo (.noText key))
  let count ← need steps.whole? (.undo .stepsNotWhole)
  let text ← attempt (.undo ∘ .recipe) (textOf start)
  replay text (entries.take count.toNat)

/-- Takes the latest edits of a file back. -/
def rollback (key : String) (steps current : Value) : Procedure (List Char) := do
  let text ← preview key steps current
  let entries ← need (Assoc.find? key (← get).entries) (.unknownFile key)
  let count ← need steps.whole? (.undo .stepsNotWhole)
  modify (Store.changeEntries key fun _ => entries.drop count.toNat)
  modify (Store.setHead key (.str (String.ofList text)))
  return text

/-- The data that a stored text holds, which may be nested so many levels deep. -/
def dataOf (nesting : ℕ) : Value → Except ArchiveError Value
  | .str text =>
      match Value.ofJsonChars nesting text.toList with
      | .ok value => .ok value
      | .error .tooDeep => .error .tooDeep
      | .error .halfPair => .error .halfPair
      | .error _ => .error .unreadable
  | _ => .error .unreadable

/-- The data of the files in the data of a history. -/
def filesOf : Value → Except ArchiveError (List (String × Value))
  | .object fields =>
      match (Assoc.find? "files" fields).getD (.object []) with
      | .object files => .ok files
      | _ => .error .unreadable
  | _ => .error .unreadable

/-- Replaces the content of the history by a stored one. -/
def restore (nesting : ℕ) (stored : Value) : Procedure Unit := do
  let data ← attempt .archive (dataOf nesting stored)
  let files ← attempt .archive (filesOf data)
  let capacity := (← get).capacity
  let entries ← files.mapM fun file => attempt .archive (readFile capacity file)
  modify ({ · with entries := entries })
  modify ({ · with heads := readHeads files })

/-! ## Looking -/

theorem run_need_some (value : α) (error : AccessError) (store : Store) :
    (need (some value) error).run store = .ok value store :=
  rfl

theorem run_refuse_false (error : AccessError) (store : Store) :
    (refuse false error).run store = .ok () store :=
  rfl

/-- How a procedure ends that has only looked so far: it goes on with what it found, or it gives up
and leaves the history as it is. -/
def resume (store : Store) (next : α → EStateM.Result AccessError Store β) :
    Except AccessError α → EStateM.Result AccessError Store β
  | .ok value => next value
  | .error cause => .error cause store

/-- How a procedure ends that only looks. -/
def settle (store : Store) (outcome : Except AccessError α) :
    EStateM.Result AccessError Store α :=
  resume store (.ok · store) outcome

theorem run_attempt (error : ε → AccessError) (result : Except ε α) (store : Store) :
    (attempt error result).run store = settle store (result.mapError error) := by
  cases result <;> rfl

/-- What follows on looking starts from the same history, unless looking ends the procedure. -/
theorem run_bind_of_settle {look : Procedure α} {next : α → Procedure β} {store : Store}
    {outcome : Except AccessError α} (looked : look.run store = settle store outcome) :
    (look >>= next).run store = resume store (fun value => (next value).run store) outcome := by
  rw [EStateM.run_bind, looked]
  cases outcome <;> rfl

theorem run_replay (text : List Char) (entries : List Entry) (store : Store) :
    (replay text entries).run store =
      settle store ((undoAll text entries).mapError (.undo ∘ .recipe)) := by
  induction entries generalizing text with
  | nil => rfl
  | cons entry rest ih =>
      rw [replay, run_bind_of_settle (run_attempt _ _ _), undoAll]
      cases entry.undo text with
      | error cause => rfl
      | ok earlier => exact ih earlier

theorem run_preview (key : String) (steps current : Value) (history : History) :
    (preview key steps current).run history.store =
      settle history.store ((history.preview key steps current).mapError .undo) := by
  rw [preview, History.preview, previewCount, EStateM.run_bind]
  cases steps.number? with
  | none => rfl
  | some number =>
  simp only [run_need_some, EStateM.run_bind]
  cases number.less (.whole 1) with
  | true => rfl
  | false =>
  simp only [run_refuse_false, EStateM.run_get, entriesOf_store]
  cases Number.less (.whole (history.entriesOf key).length) number with
  | true => rfl
  | false =>
  simp only [run_refuse_false, Bool.false_eq_true, if_false, startFrom?_store]
  cases history.start? key current with
  | none => rfl
  | some start =>
  simp only [run_need_some]
  cases steps.whole? with
  | none => rfl
  | some count =>
  simp only [run_need_some, run_attempt]
  cases textOf start with
  | error cause => rfl
  | ok text =>
  simp only [Except.mapError, settle, resume, bind, Except.bind, run_replay]
  cases undoAll text ((history.entriesOf key).take count.toNat) <;> rfl

theorem run_mapM_attempt {items : List α} (error : ε → AccessError) (read : α → Except ε β)
    (store : Store) :
    (items.mapM fun item => attempt error (read item)).run store =
      settle store ((items.mapM read).mapError error) := by
  induction items with
  | nil => rfl
  | cons item items ih =>
      rw [List.mapM_cons, List.mapM_cons, run_bind_of_settle (run_attempt _ _ _)]
      cases read item with
      | error cause => rfl
      | ok result =>
          dsimp only [Except.mapError, resume]
          rw [run_bind_of_settle ih]
          cases items.mapM read <;> rfl

end Procedure

/-! ## Accesses -/

/-- An access to the history. -/
inductive Access where
  /-- Records an edit, and the text after it if that is not what the edit leads to. -/
  | record (now : Binary64) (key : String) (before : Value) (edit : Option Edit) (after : Value)
  /-- Takes edits of a file back. -/
  | rollback (key : String) (steps current : Value)
  /-- Works out the text before edits of a file. -/
  | preview (key : String) (steps current : Value)
  /-- Replaces the content by a stored one. -/
  | restore (nesting : ℕ) (stored : Value)

namespace Access

/-- The steps of an access. The answer is a text, if any. -/
def perform : Access → Procedure (Option (List Char))
  | record now key before edit after => do
      Procedure.record now key before edit after
      return none
  | rollback key steps current => do
      let text ← Procedure.rollback key steps current
      return some text
  | preview key steps current => do
      let text ← Procedure.preview key steps current
      return some text
  | restore nesting stored => do
      Procedure.restore nesting stored
      return none

/-- What comes of an access: the answer and the next history, or the reason to give up. -/
def outcome (history : History) : Access → Except AccessError (Option (List Char) × History)
  | record now key before edit after =>
      ((history.recordCommit now key before edit after).mapError .record).map
        fun next => (none, next)
  | rollback key steps current =>
      ((history.rollback key steps current).mapError .undo).map fun found => (some found.1, found.2)
  | preview key steps current =>
      ((history.preview key steps current).mapError .undo).map fun text => (some text, history)
  | restore nesting (.str text) =>
      ((history.restore nesting text.toList).mapError .archive).map fun next => (none, next)
  | restore _ _ => .error (.archive .unreadable)

end Access

namespace Procedure

theorem run_headAfter_null (before : Value) (edit : Edit) (store : Store) :
    (headAfter before (some edit) .null).run store =
      settle store (((textOf before).mapError (.record ∘ .text)).bind fun text =>
        ((edit.apply text).mapError (.record ∘ .edit)).map fun new =>
          .str (String.ofList new)) := by
  rw [headAfter, run_bind_of_settle (run_attempt _ _ _)]
  cases textOf before with
  | error cause => rfl
  | ok text =>
      simp only [Except.mapError, resume, Except.bind]
      rw [run_bind_of_settle (run_attempt _ _ _)]
      cases edit.apply text <;> rfl

theorem headAfter_of_ne_null {after : Value} (given : after ≠ .null) (before : Value)
    (edit : Option Edit) : headAfter before edit after = pure after := by
  cases after with
  | null => exact absurd rfl given
  | _ => cases edit <;> rfl

theorem changeEntries_ensureFile (key : String) (change : List Entry → List Entry)
    (store : Store) :
    (store.ensureFile key).changeEntries key change = store.changeEntries key change := by
  rw [Store.ensureFile]
  split
  next => rfl
  next unknown =>
    simp only [Store.changeEntries, Store.entriesOf, Assoc.find?_put_self, unknown, Assoc.put_put,
      Option.getD_some, Option.getD_none]

theorem changeEntries_changeEntries (key : String) (first second : List Entry → List Entry)
    (store : Store) :
    (store.changeEntries key first).changeEntries key second =
      store.changeEntries key (second ∘ first) := by
  simp only [Store.changeEntries, Store.entriesOf, Assoc.find?_put_self, Assoc.put_put,
    Option.getD_some, Function.comp_apply]

/-- Behind a new entry, at most one makes room. -/
theorem run_makeRoom (key : String) (entry : Entry) (store : Store) :
    (makeRoom key).run (store.changeEntries key (entry :: ·)) =
      .ok () (store.changeEntries key (store.capacity.takeIn entry)) := by
  have entered : (store.changeEntries key (entry :: ·)).entriesOf key =
      entry :: store.entriesOf key := by
    rw [Store.changeEntries, Store.entriesOf, Assoc.find?_put_self, Option.getD_some]
  have same : (store.changeEntries key (entry :: ·)).capacity = store.capacity := rfl
  simp only [makeRoom, EStateM.run_bind, EStateM.run_get, entered, same, List.length_cons]
  split
  next full =>
    rw [EStateM.run_modify, changeEntries_changeEntries]
    simp only [Store.changeEntries, Function.comp_apply, Capacity.takeIn]
    rw [if_pos full]
  next room =>
    simp only [Store.changeEntries, Capacity.takeIn]
    rw [if_neg room]
    rfl

/-- Nothing keeps an entry from being entered. -/
theorem run_enter (key : String) (entry : Entry) (head : Value) (history : History)
    (text : List Char) :
    (enter key entry head).run history.store =
      .ok () ((history.push key entry text).setHead key head).store := by
  have pushed : (history.store.changeEntries key (history.capacity.takeIn entry)).setHead key head =
      ((history.push key entry text).setHead key head).store :=
    Store.ext rfl rfl (Assoc.put_put ..).symm
  simp only [enter, EStateM.run_bind, EStateM.run_modify, changeEntries_ensureFile, run_makeRoom]
  exact congrArg (EStateM.Result.ok ()) pushed

theorem run_recordChange (now : Binary64) (key : String) (before : Value) (edit : Option Edit)
    (head : Value) (history : History) :
    (recordChange now key before edit head).run history.store =
      resume history.store (fun next => .ok () next.store)
        (((textOf before).mapError (.record ∘ .text)).bind fun old =>
          ((textOf head).mapError (.record ∘ .text)).map fun new =>
            (history.record now key old new edit).setHead key head) := by
  rw [recordChange, run_bind_of_settle (run_attempt _ _ _)]
  cases textOf before with
  | error cause => rfl
  | ok old =>
  simp only [Except.mapError, resume]
  rw [run_bind_of_settle (run_attempt _ _ _)]
  cases textOf head with
  | error cause => rfl
  | ok new => exact run_enter key _ head history new

theorem run_record_null (now : Binary64) (key : String) (before : Value) (edit : Edit)
    (history : History) :
    (record now key before (some edit) .null).run history.store =
      resume history.store (fun next => .ok () next.store)
        ((history.recordCommit now key before (some edit) .null).mapError .record) := by
  rw [record, run_bind_of_settle (run_headAfter_null _ _ _), recordCommit]
  cases read : textOf before with
  | error cause => rfl
  | ok old =>
  simp only [Except.mapError, bind, Except.bind, recordEdit]
  cases edit.apply old with
  | error cause => rfl
  | ok new =>
  have head : textOf (.str (String.ofList new)) = .ok new := by
    rw [textOf, String.toList_ofList]
  have same : (history.record now key old new (some edit)).setHead key (.str (String.ofList new)) =
      history.record now key old new (some edit) :=
    History.ext rfl rfl (Assoc.put_put ..)
  simp only [Except.map, resume]
  rw [run_recordChange, read, head]
  simp only [Except.mapError, Except.bind, Except.map, resume, same]

theorem run_record (now : Binary64) (key : String) (before : Value) (edit : Option Edit)
    (after : Value) (history : History) :
    (record now key before edit after).run history.store =
      resume history.store (fun next => .ok () next.store)
        ((history.recordCommit now key before edit after).mapError .record) := by
  by_cases missing : after = .null
  · subst missing
    cases edit with
    | none => rfl
    | some edit => exact run_record_null now key before edit history
  · rw [record, headAfter_of_ne_null missing, pure_bind, run_recordChange, recordCommit]
    · cases textOf before with
      | error cause => rfl
      | ok old => cases textOf after <;> rfl
    · intro _ isNull
      exact missing isNull
    · intro _ _ isNull
      exact missing isNull

/-- Steps that can be previewed are a number that was counted off the entries of a known file. -/
theorem exists_of_previewCount {history : History} {key : String} {steps current : Value}
    {text : List Char} {count : ℕ}
    (previewed : history.previewCount key steps current = .ok (text, count)) :
    ∃ number entries, steps.whole? = some number ∧ number.toNat = count ∧
      Assoc.find? key history.entries = some entries := by
  rw [previewCount] at previewed
  split at previewed
  · cases previewed
  next number isNumber =>
  split at previewed
  · cases previewed
  next atLeastOne =>
  split at previewed
  · cases previewed
  next atMostAll =>
  split at previewed
  · cases previewed
  · cases previewed
  next start given _ whole =>
  have counted : given.toNat = count := by
    cases read : textOf start with
    | error cause =>
        rw [read] at previewed
        cases previewed
    | ok current =>
        cases undone : undoAll current ((history.entriesOf key).take given.toNat) with
        | error cause =>
            simp [read, undone, Except.mapError, bind, Except.bind] at previewed
        | ok before =>
            simp only [read, undone, Except.mapError, bind, Except.bind, Except.ok.injEq,
              Prod.mk.injEq] at previewed
            exact previewed.2
  have isWhole : number = .whole given := by
    rw [Value.whole?, isNumber] at whole
    cases number <;> simp_all
  cases known : Assoc.find? key history.entries with
  | some entries => exact ⟨given, entries, whole, counted, rfl⟩
  | none =>
      -- an unknown file has no entry, while at least one step was asked for
      rw [isWhole, less_whole, decide_eq_true_iff] at atLeastOne
      rw [isWhole, less_whole, decide_eq_true_iff, entriesOf, known] at atMostAll
      simp only [Option.getD_none, List.length_nil, Nat.cast_zero] at atMostAll
      omega

theorem run_rollback (key : String) (steps current : Value) (history : History) :
    (rollback key steps current).run history.store =
      resume history.store (fun (text, next) => .ok text next.store)
        ((history.rollback key steps current).mapError .undo) := by
  rw [rollback, run_bind_of_settle (run_preview _ _ _ _), History.preview, History.rollback]
  cases previewed : history.previewCount key steps current with
  | error cause => rfl
  | ok found =>
  obtain ⟨text, count⟩ := found
  obtain ⟨number, entries, whole, rfl, known⟩ := exists_of_previewCount previewed
  have stored : Assoc.find? key history.store.entries = some entries := known
  simp only [Except.map, Except.mapError, resume, EStateM.run_bind, EStateM.run_get, stored, whole,
    run_need_some, EStateM.run_modify, EStateM.run_pure]
  have dropped : (history.store.changeEntries key fun _ => entries.drop number.toNat).setHead key
      (.str (String.ofList text)) = (history.drop key number.toNat text).store := by
    refine Store.ext rfl ?_ rfl
    simp only [Store.setHead, Store.changeEntries, History.store, drop, write, entriesOf, known,
      Option.getD_some]
  rw [dropped]

theorem restore_eq_bind (history : History) (nesting : ℕ) (text : String) :
    history.restore nesting text.toList =
      (dataOf nesting (.str text)).bind history.restoreValue := by
  rw [History.restore, dataOf]
  cases Value.ofJsonChars nesting text.toList with
  | ok value => rfl
  | error cause => cases cause <;> rfl

theorem holdsFiles_of_filesOf {data : Value} {files : List (String × Value)}
    (found : filesOf data = .ok files) : HoldsFiles data files := by
  cases data with
  | object fields =>
      rw [filesOf] at found
      split at found
      next held =>
        cases found
        exact ⟨fields, rfl, held⟩
      · cases found
  | _ => cases found

theorem restoreValue_of_filesOf_eq_error {data : Value} {cause : ArchiveError}
    (failed : filesOf data = .error cause) (history : History) :
    history.restoreValue data = .error cause := by
  cases data with
  | object fields =>
      rw [filesOf] at failed
      rw [restoreValue]
      split at failed
      · cases failed
      next other => simpa [other] using failed
  | _ =>
      cases failed
      rfl

theorem run_restore (nesting : ℕ) (text : String) (history : History) :
    (restore nesting (.str text)).run history.store =
      resume history.store (fun next => .ok () next.store)
        ((history.restore nesting text.toList).mapError .archive) := by
  rw [restore, run_bind_of_settle (run_attempt _ _ _), restore_eq_bind]
  cases dataOf nesting (.str text) with
  | error cause => rfl
  | ok data =>
  simp only [Except.mapError, resume, Except.bind]
  rw [run_bind_of_settle (run_attempt _ _ _)]
  cases found : filesOf data with
  | error cause =>
      rw [restoreValue_of_filesOf_eq_error found]
      rfl
  | ok files =>
  have holds := holdsFiles_of_filesOf found
  simp only [Except.mapError, resume, EStateM.run_bind, EStateM.run_get, run_mapM_attempt]
  cases restored : history.restoreValue data with
  | error cause =>
      have read : files.mapM (readFile history.store.capacity) = .error cause :=
        holds.restoreValue_eq_error_iff.1 restored
      rw [read]
      rfl
  | ok next =>
      obtain ⟨capacity, entries, heads⟩ := holds.restoreValue_eq_ok_iff.1 restored
      have read : files.mapM (readFile history.store.capacity) = .ok next.entries := entries
      rw [read]
      exact congrArg (EStateM.Result.ok ()) (Store.ext capacity.symm rfl heads.symm)

end Procedure

namespace Access

/-- An access ends as the function on histories does. If it gives up, it leaves the history that it
found. -/
theorem run_perform (access : Access) (history : History) :
    access.perform.run history.store =
      Procedure.resume history.store (fun found => .ok found.1 found.2.store)
        (access.outcome history) := by
  cases access with
  | record now key before edit after =>
      rw [perform, EStateM.run_bind, Procedure.run_record, outcome]
      cases history.recordCommit now key before edit after <;> rfl
  | rollback key steps current =>
      rw [perform, EStateM.run_bind, Procedure.run_rollback, outcome]
      cases history.rollback key steps current <;> rfl
  | preview key steps current =>
      rw [perform, EStateM.run_bind, Procedure.run_preview, outcome]
      cases history.preview key steps current <;> rfl
  | restore nesting stored =>
      rw [perform, EStateM.run_bind]
      cases stored with
      | str text =>
          rw [Procedure.run_restore, outcome]
          cases history.restore nesting text.toList <;> rfl
      | _ => rfl

/-- **An access that gives up changes nothing.** Whatever the history and the access are, the steps
that give up at some point leave the very history that they began with. They give up exactly if the
function on histories fails, and otherwise end with its answer and its history. -/
theorem perform_account (access : Access) (history : History) :
    (∀ cause after, access.perform.run history.store = .error cause after →
      after = history.store) ∧
    (∀ cause, access.outcome history = .error cause ↔
      access.perform.run history.store = .error cause history.store) ∧
    ∀ answer next, access.outcome history = .ok (answer, next) ↔
      access.perform.run history.store = .ok answer next.store := by
  rw [run_perform]
  cases access.outcome history with
  | error cause => simp [Procedure.resume, eq_comm]
  | ok found => simp [Procedure.resume, Prod.ext_iff, store_inj]

namespace Sample

/-- A file with two edits, of which the earlier one cannot be taken back. -/
def history : History where
  capacity := .ofNat 5 (Nat.succ_pos 4)
  entries := [("a", [⟨.finite false 0 0, ⟨[], [], [(0, .str "x")], false⟩, 1, none⟩,
    ⟨.finite false 0 0, ⟨[], [], [(9, .str "w")], false⟩, 1, none⟩])]
  heads := [("a", .str "y")]
  fits := List.forall_mem_singleton.2 (Capacity.holds_ofNat _ (Nat.le_of_ble_eq_true rfl))

theorem preview_one : history.preview "a" (.int 1) .null = .ok ['x'] := by
  cbv

theorem rollback_two : history.rollback "a" (.int 2) .null = .error (.recipe .noSuchLine) := by
  cbv

end Sample

/-- Taking one edit back would do, while taking two back gives up halfway and changes nothing. -/
theorem perform_account_broken_chain :
    (preview "a" (.int 1) .null).perform.run Sample.history.store =
      .ok (some ['x']) Sample.history.store ∧
    (rollback "a" (.int 2) .null).perform.run Sample.history.store =
      .error (.undo (.recipe .noSuchLine)) Sample.history.store := by
  constructor
  · refine ((perform_account _ _).2.2 _ _).1 ?_
    rw [outcome, Sample.preview_one]
    rfl
  · refine ((perform_account _ _).2.1 _).1 ?_
    rw [outcome, Sample.rollback_two]
    rfl

end Access

end EditGate.History

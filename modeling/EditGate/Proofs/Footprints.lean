import EditGate.Proofs.Pasts
import Mathlib

/-!
# Footprints of requests

What a request leaves behind. A request that does not write leaves the disk and the history
as they are, whatever stopped it. One that writes changes a single file, apart from what was
beside it, and what is recorded of that file: a commit puts one entry in front, a rollback
drops as many as it was asked to, and the head is the text that was written.

Where a file has as many entries as there is room for, a commit also makes room: the oldest
entry goes.
-/

namespace EditGate

/-! ## Disks and histories in which one file has changed -/

/-- From one disk to another, only the file at a path has been written. What is beside it, where
it was first written, is left open. -/
structure Disk.OnlyWritten (path : Path) (text : List Char) (before after : Disk) : Prop where
  file : after.item? path = some (.file (Utf8.encode text))
  others : ∀ place, place ≠ path → place ≠ path.extendName Workspace.besideEnding →
    after.item? place = before.item? place

theorem Workspace.Leads.onlyWritten {workspace : Workspace} {disk after : Disk} {name : String}
    {path : Path} {text : List Char} (leads : workspace.Leads name path)
    (wrote : workspace.write disk name text = (after, .ok ())) :
    Disk.OnlyWritten path text disk after := by
  rw [leads.write_eq] at wrote
  constructor
  · exact (replace_eq_ok wrote).2
  · intro place different notBeside
    rcases replace_cases disk path (Utf8.encode text) with ⟨_, failed⟩ | ⟨_, _, failed⟩ | ⟨_, done⟩
    · rw [failed] at wrote
      cases wrote
    · rw [failed] at wrote
      cases wrote
    · rw [done] at wrote
      cases wrote
      rw [Disk.item?_put_of_ne different, Disk.item?_erase_of_ne notBeside]

/-- From one history to another, only what is recorded of one file has changed: to the given
entries, and to the given text as its head. -/
structure History.OnlyRecorded (key : String) (entries : List Entry) (text : List Char)
    (before after : History) : Prop where
  capacity : after.capacity = before.capacity
  entries : after.entriesOf key = entries
  head : after.head? key = some (.str (String.ofList text))
  others : ∀ other, other ≠ key → SameFile other before after

namespace History

theorem onlyRecorded_record (history : History) (now : Binary64) (key : String)
    (before after : List Char) (edit : Option Edit) :
    OnlyRecorded key
      (history.capacity.keep (Entry.ofTexts now before after edit :: history.entriesOf key)) after
      history (history.record now key before after edit) where
  capacity := rfl
  entries := entriesOf_record_self ..
  head := head?_record_self ..
  others := fun _ different => sameFile_record different ..

theorem onlyRecorded_drop (history : History) (key : String) (steps : Nat) (text : List Char) :
    OnlyRecorded key ((history.entriesOf key).drop steps) text history
      (history.drop key steps text) where
  capacity := rfl
  entries := entriesOf_drop_self ..
  head := head?_drop_self ..
  others := fun _ different => sameFile_drop different ..

end History

namespace Gate

/-! ## Outcomes -/

/-- The name of the outcome of an edit. -/
def outcomeStatus : Except Failure Application → String
  | .error failure => failure.status
  | .ok application => application.status

/-- Whether an edit was written. -/
def outcomeWritten : Except Failure Application → Bool
  | .error _ => false
  | .ok application => application.written

/-- The names of the outcomes of edits that are not written. -/
def unwrittenStatuses : List String :=
  ["OUTSIDE_WORKSPACE", "INVALID_EDIT", "READ_ERROR", "REJECTED", "PREVIEW", "WRITE_ERROR"]

/-- A trial fails because the file cannot be read or the edit does not fit. -/
theorem status_of_trial_error {gate : Gate} {disk : Disk} {name : String} {edit : Edit}
    {failure : Failure} (tried : gate.trial disk name edit = .ok (.error failure)) :
    failure.status ∈ unwrittenStatuses := by
  simp only [Gate.trial, Gate.text, named] at tried
  split at tried
  · cases readable : gate.workspace.read disk name with
    | error cause =>
        simp only [readable, Except.mapError, bind, Except.bind] at tried
        cases tried
        simp [Failure.status, unwrittenStatuses]
    | ok text =>
        simp only [readable, Except.mapError, bind, Except.bind] at tried
        split at tried
        · cases tried
        · split at tried
          · cases tried
          · cases tried
            simp [Failure.status, unwrittenStatuses]
  · cases tried

theorem status_of_unwritten {application : Application} (unwritten : application.written = false) :
    application.status ∈ unwrittenStatuses := by
  obtain ⟨name, key, trial, disposition⟩ := application
  cases disposition with
  | rejected | dryRun | unwritten => simp [Application.status, unwrittenStatuses]
  | committed => cases unwritten

/-- An edit that is not written ends in one of six ways. -/
theorem status_of_apply {gate next : Gate} {disk after : Disk} {now : Binary64} {name : String}
    {edit : Edit} {mode : Mode} {outcome : Except Failure Application}
    (applied : gate.apply disk now name edit mode = .ok (next, after, outcome))
    (unwritten : outcomeWritten outcome = false) : outcomeStatus outcome ∈ unwrittenStatuses := by
  cases outcome with
  | ok application => exact status_of_unwritten unwritten
  | error failure =>
      simp only [Gate.apply, applyOn, named] at applied
      split at applied
      · split at applied
        · cases applied
          simp [outcomeStatus, Failure.status, unwrittenStatuses]
        · cases tried : gate.trial disk name edit with
          | error fault =>
              rw [tried] at applied
              cases applied
          | ok trial =>
              simp only [tried, bind, Except.bind] at applied
              cases trial with
              | error cause =>
                  cases applied
                  exact status_of_trial_error tried
              | ok trial =>
                  simp only at applied
                  split at applied
                  · cases applied
                  · split at applied <;> cases applied
      · cases applied

/-! ## What a request leaves behind -/

/-- A written edit is a commit. -/
theorem committed?_of_written {application : Application} (written : application.written) :
    (Answer.applied (.ok application)).committed? = some application.content := by
  obtain ⟨name, key, trial, disposition⟩ := application
  cases disposition with
  | rejected | dryRun | unwritten => cases written
  | committed => rfl

/-- An edit leaves all as it is unless it is written. -/
theorem eq_of_apply_unwritten {gate next : Gate} {disk after : Disk} {now : Binary64}
    {name : String} {edit : Edit} {mode : Mode} {outcome : Except Failure Application}
    (applied : gate.apply disk now name edit mode = .ok (next, after, outcome))
    (unwritten : outcomeWritten outcome = false) : next = gate ∧ after = disk := by
  have effect := apply_effect applied
  cases effect with
  | idle => exact ⟨rfl, rfl⟩
  | commit _ _ _ _ committed =>
      cases outcome with
      | error failure => cases committed
      | ok application =>
          obtain ⟨spelled, key, trial, disposition⟩ := application
          cases disposition with
          | rejected | dryRun | unwritten => cases committed
          | committed => cases unwritten

/-- A written edit changes its file and what is recorded of it. -/
theorem onlyChanged_of_apply_written {gate next : Gate} {disk after : Disk} {now : Binary64}
    {name : String} {edit : Edit} {mode : Mode} {application : Application}
    (applied : gate.apply disk now name edit mode = .ok (next, after, .ok application))
    (written : application.written) :
    ∃ path before, gate.workspace.Leads name path ∧
      gate.workspace.read disk name = .ok before ∧
      Disk.OnlyWritten path application.content disk after ∧
      History.OnlyRecorded (gate.workspace.keyAt path)
        (gate.history.capacity.keep
          (.ofTexts now before application.content (some edit) ::
            gate.history.entriesOf (gate.workspace.keyAt path)))
        application.content gate.history next.history := by
  have effect := apply_effect applied
  have content := committed?_of_written written
  cases effect with
  | idle uncommitted =>
      rw [uncommitted] at content
      cases content
  | @commit _ _ _ _ path before text _ _ leads readable _ wrote committed =>
      rw [committed] at content
      obtain rfl := Option.some.inj content
      exact ⟨path, before, leads, readable, leads.onlyWritten wrote,
        History.onlyRecorded_record ..⟩

/-- A rollback that is carried out changes its file and what is recorded of it. -/
theorem onlyChanged_of_rollback {gate next : Gate} {disk after : Disk} {name : String}
    {steps : Int} {undone : Undone}
    (rolled : gate.rollback disk name (.int steps) = .ok (next, after, .ok undone)) :
    ∃ path, gate.workspace.Leads name path ∧ 1 ≤ steps ∧
      steps ≤ (gate.history.entriesOf (gate.workspace.keyAt path)).length ∧
      Disk.OnlyWritten path undone.content disk after ∧
      History.OnlyRecorded (gate.workspace.keyAt path)
        ((gate.history.entriesOf (gate.workspace.keyAt path)).drop steps.toNat)
        undone.content gate.history next.history := by
  have effect := rollback_effect rolled
  cases effect with
  | idle _ unrestored => cases unrestored
  | @restore _ _ path _ restored _ _ _ leads _ taken wrote _ found =>
      cases found
      obtain ⟨positive, enough, -, rfl⟩ := History.of_rollback_eq_ok taken
      exact ⟨path, leads, positive, enough, leads.onlyWritten wrote, History.onlyRecorded_drop ..⟩

/-- **Footprints of requests.** An edit that is not written, in one of six ways, and a rollback
that is not carried out leave the gate and the disk as they are. A written edit changes its file
to the text that was accepted, puts one entry in front of those of the file, of which as many
are kept as there is room for, and sets the head to that text. A rollback that is carried out
changes its file to the restored text, drops as many entries in front as it was asked to, and
sets the head to that text. No other file and nothing that is recorded of another file
changes, apart from what was beside the file. -/
theorem footprint_of_requests (gate : Gate) (disk : Disk) (name : String) :
    (∀ now edit mode next after outcome,
      gate.apply disk now name edit mode = .ok (next, after, outcome) →
      (outcomeWritten outcome = false →
        outcomeStatus outcome ∈ unwrittenStatuses ∧ next = gate ∧ after = disk) ∧
      ∀ application, outcome = .ok application → application.written →
        ∃ path before, gate.workspace.Leads name path ∧
          gate.workspace.read disk name = .ok before ∧
          Disk.OnlyWritten path application.content disk after ∧
          History.OnlyRecorded (gate.workspace.keyAt path)
            (gate.history.capacity.keep
              (.ofTexts now before application.content (some edit) ::
                gate.history.entriesOf (gate.workspace.keyAt path)))
            application.content gate.history next.history) ∧
    ∀ steps next after outcome,
      gate.rollback disk name (.int steps) = .ok (next, after, outcome) →
      (∀ failure, outcome = .error failure → next = gate ∧ after = disk) ∧
      ∀ undone, outcome = .ok undone →
        ∃ path, gate.workspace.Leads name path ∧ 1 ≤ steps ∧
          steps ≤ (gate.history.entriesOf (gate.workspace.keyAt path)).length ∧
          Disk.OnlyWritten path undone.content disk after ∧
          History.OnlyRecorded (gate.workspace.keyAt path)
            ((gate.history.entriesOf (gate.workspace.keyAt path)).drop steps.toNat)
            undone.content gate.history next.history := by
  constructor
  · intro now edit mode next after outcome applied
    constructor
    · intro unwritten
      exact ⟨status_of_apply applied unwritten, eq_of_apply_unwritten applied unwritten⟩
    · rintro application rfl written
      exact onlyChanged_of_apply_written applied written
  · intro steps next after outcome rolled
    constructor
    · rintro failure rfl
      have effect := rollback_effect rolled
      cases effect with
      | idle => exact ⟨rfl, rfl⟩
      | restore _ _ _ _ _ found => cases found
    · rintro undone rfl
      exact onlyChanged_of_rollback rolled

namespace Sample

/-- A gate with room for one entry, which is taken. -/
def fullGate : Gate where
  workspace := gate.workspace
  settings := gate.settings
  policy := gate.policy
  history := (History.empty (.ofNat 1 Nat.one_pos)).record (.finite false 0 0) "main.lua" []
    "a = 1\n".toList none

end Sample

/-- **A commit where there is no more room.** The entry that was there has gone, so the commit
did more than to put one in front. -/
theorem apply_evicts_when_full :
    ∃ next after application,
      Sample.fullGate.apply (Sample.disk "a = 1\n") (.finite false 0 0) "main.lua"
        (Sample.replace 1 1 "b = 2") {} = .ok (next, after, .ok application) ∧
      application.written ∧
      ∀ entry, next.history.entriesOf "main.lua" ≠
        entry :: Sample.fullGate.history.entriesOf "main.lua" := by
  have leads : Sample.fullGate.workspace.Leads "main.lua" ["w", "main.lua"] := Sample.leads_main
  have key : Sample.fullGate.workspace.keyAt ["w", "main.lua"] = "main.lua" := by decide +kernel
  have possible : CanCommit Sample.fullGate.workspace Sample.fullGate.policy
      (Sample.disk "a = 1\n") "main.lua" (Sample.replace 1 1 "b = 2") "a = 1\n".toList
      "b = 2\n".toList _ := Sample.canCommit_first
  have applied := possible.apply_eq leads (rfl : ({} : Mode).dryRun = false) (.finite false 0 0)
  rw [key] at applied
  refine ⟨_, _, _, applied, rfl, ?_⟩
  intro entry equal
  have room := History.holds_entriesOf (Sample.fullGate.history.record (.finite false 0 0)
    "main.lua" "a = 1\n".toList "b = 2\n".toList (some (Sample.replace 1 1 "b = 2")))
    "main.lua" 1 rfl
  have taken : (Sample.fullGate.history.entriesOf "main.lua").length = 1 := by
    rw [Sample.fullGate, History.entriesOf_record_self]
    rfl
  rw [equal, List.length_cons, taken] at room
  exact absurd room (by decide)

end Gate

end EditGate

import EditGate.Proofs.Footprints
import EditGate.Proofs.Persistence
import EditGate.Proofs.Restoring
import Mathlib

/-!
# Commits of a run

A run of the program that is to write without asking first makes a call to its gate and then saves
the history. These are two writes, and there is no way back from the first. If the call is not
carried out, nothing has changed. If it is and the history is saved, both files are written. If the
history cannot be saved, the run breaks off, and the file is written while the stored history is as
it was, or holds only a beginning of the new one where the device breaks off in it. Where something
cannot be shown, a run breaks off before it changes anything or once it has written both files.

Runs that find a stored history with half of a pair alone are set apart, as such a half is in no
text.
-/

namespace EditGate

/-- From one disk to another, nothing has changed but at the given places, except that directories
have come about. -/
def Disk.ChangedOnlyAt (places : List Path) (before after : Disk) : Prop :=
  ∀ place ∉ places, after.item? place = before.item? place ∨
    before.item? place = none ∧ after.item? place = some .directory

namespace Disk

variable {path : Path} {text : List Char} {before written after : Disk}

theorem OnlyWritten.changedOnlyAt (wrote : OnlyWritten path text before written)
    (grows : Grows written after) :
    ChangedOnlyAt [path, path.extendName Workspace.besideEnding] before after := by
  intro place elsewhere
  rw [List.mem_cons, List.mem_singleton, not_or] at elsewhere
  rw [← wrote.others place elsewhere.1 elsewhere.2]
  exact grows place

/-- Where directories come about, a file stays as it is. -/
theorem Grows.item?_file (grows : Grows written after) {octets : List UInt8}
    (file : written.item? path = some (.file octets)) : after.item? path = some (.file octets) := by
  rcases grows path with same | ⟨missing, -⟩
  · rw [same, file]
  · rw [missing] at file
    cases file

theorem ChangedOnlyAt.put {places : List Path} (changed : ChangedOnlyAt places before after)
    (place : Path) (item : Item) :
    ChangedOnlyAt (place :: places) before (after.put place item) := by
  intro other elsewhere
  rw [List.mem_cons, not_or] at elsewhere
  rw [item?_put_of_ne elsewhere.1]
  exact changed other elsewhere.2

end Disk

namespace Command

/-- The gate that a run works with: it is made from the settings that the run finds, at whose level
the log can be set up, and has the history that the run loads. -/
structure WorksWith (situation : Situation) (invocation : Invocation) (gate : Gate) : Prop where
  given : invocation.workspace.isSome = true
  nameable : (workspaceRoute invocation).isNameable = true
  loads : ∃ remarks settings made found,
    Settings.ofDisk situation.host.document situation.disk situation.here
      (settingsRoute situation.here invocation) = .ok (remarks, .ok settings) ∧
    situation.host.logs settings.logLevel = true ∧
    Gate.ofSettings? (.ofPath (rootOf situation.here invocation)) settings = some made ∧
    made.load situation.host.nesting situation.disk = .ok (gate, found)

/-- A command to try an edit and to write nothing. -/
def IsDryRun : Command → Prop
  | edit request => request.dryRun = true
  | undo _ _ _ | check _ _ _ _ | history _ => False

/-- The call of a run is carried out where nothing breaks off: it leaves the next gate, and the file
at a path is written with a text. -/
structure Carries (situation : Situation) (invocation : Invocation) (next : Gate) (path : Path)
    (text : List Char) (written : Disk) : Prop where
  served : ∃ gate call, WorksWith situation invocation gate ∧
    invocation.command.call? situation = some call ∧ gate.workspace.Leads call.name path ∧
    call.serve ⟨gate, situation.disk⟩ = (.exit .success, ⟨next, written⟩)
  file : Disk.OnlyWritten path text situation.disk written

/-- A run ends well, or all but well: the console cannot show that it did. -/
def EndsWell (host : Host) (ending : Ending) : Prop :=
  ending = .exit .success ∨ ∃ item, host.Refuses item ∧ ending = .fault (.unshown item)

/-- All that can come of a run that is to write without asking first. -/
inductive Ends (situation : Situation) (invocation : Invocation) (outcome : Outcome) : Prop
  /-- Nothing is changed, as nothing is by the call of the run, if it makes one. Such a run ends
  well only if it is not to write anything. -/
  | unchanged :
      outcome.disk = situation.disk →
      (∀ gate call, WorksWith situation invocation gate →
        invocation.command.call? situation = some call →
        call.serve ⟨gate, situation.disk⟩ = (outcome.ending, ⟨gate, situation.disk⟩)) →
      (outcome.ending = .exit .success → invocation.command.IsDryRun) →
      Ends situation invocation outcome
  /-- The console cannot show something, and nothing is changed. -/
  | unshown {item : Console.Item} :
      situation.host.Refuses item →
      outcome.ending = .fault (.unshown item) →
      outcome.disk = situation.disk →
      Ends situation invocation outcome
  /-- The device breaks off in the file beside the one to be written, which is cleared away. -/
  | unwritten {next : Gate} {path : Path} {text : List Char} {written : Disk}
      {count : Option ℕ} {reason : String} :
      Carries situation invocation next path text written →
      situation.host.device (path.extendName Workspace.besideEnding) (Utf8.encode text) =
        .cut count reason →
      outcome.ending ≠ .exit .success →
      outcome.disk = situation.disk.erase (path.extendName Workspace.besideEnding) →
      Ends situation invocation outcome
  /-- The file is written, and the new history is stored. -/
  | committed {next : Gate} {path : Path} {text stored : List Char} {written : Disk} :
      Carries situation invocation next path text written →
      EndsWell situation.host outcome.ending →
      (path ≠ next.historyPath → outcome.disk.item? path = some (.file (Utf8.encode text))) →
      next.history.toText? = some stored →
      outcome.disk.item? next.historyPath = some (.file (Utf8.encode stored)) →
      Disk.ChangedOnlyAt [next.historyPath, path, path.extendName Workspace.besideEnding]
        situation.disk outcome.disk →
      Ends situation invocation outcome
  /-- The file is written, but nothing of the history can be stored. -/
  | unsaved {next : Gate} {path : Path} {text : List Char} {written : Disk}
      {cause : Gate.SaveError} :
      Carries situation invocation next path text written →
      outcome.ending = .fault (.save cause) →
      next.saveOn situation.host.device written = (outcome.disk, .error cause) →
      outcome.disk.item? path = some (.file (Utf8.encode text)) →
      Disk.ChangedOnlyAt [path, path.extendName Workspace.besideEnding] situation.disk
        outcome.disk →
      Ends situation invocation outcome
  /-- The file is written, and the device breaks off in the history, of which only a beginning is
  stored. -/
  | torn {next : Gate} {path : Path} {text stored : List Char} {written : Disk} {count : ℕ}
      {reason : String} :
      Carries situation invocation next path text written →
      situation.host.device next.historyPath (Utf8.encode stored) = .cut (some count) reason →
      outcome.ending = .fault (.save (.broken reason)) →
      (path ≠ next.historyPath → outcome.disk.item? path = some (.file (Utf8.encode text))) →
      next.history.toText? = some stored →
      outcome.disk.item? next.historyPath = some (.file ((Utf8.encode stored).take count)) →
      Disk.ChangedOnlyAt [next.historyPath, path, path.extendName Workspace.besideEnding]
        situation.disk outcome.disk →
      Ends situation invocation outcome
  /-- The stored history has a string with half of a pair alone. Nothing is said of such a run. -/
  | halved {remarks : List String} {settings : Settings} {made : Gate} {octets : List UInt8} :
      Settings.ofDisk situation.host.document situation.disk situation.here
        (settingsRoute situation.here invocation) = .ok (remarks, .ok settings) →
      Gate.ofSettings? (.ofPath (rootOf situation.here invocation)) settings = some made →
      situation.disk.lookup [] made.historyRoute = .ok (.file octets) →
      ¬ History.HoldsNoHalf situation.host.nesting octets →
      Ends situation invocation outcome

section Ends

variable {situation : Situation} {invocation : Invocation} {gate loaded : Gate} {call : Call}
  {outcome : Outcome}

/-- The gate is made from the settings that are read. -/
theorem WorksWith.exists_made (works : WorksWith situation invocation gate)
    {remarks : List String} {settings : Settings}
    (read : Settings.ofDisk situation.host.document situation.disk situation.here
      (settingsRoute situation.here invocation) = .ok (remarks, .ok settings)) :
    ∃ made found, situation.host.logs settings.logLevel = true ∧
      Gate.ofSettings? (.ofPath (rootOf situation.here invocation)) settings = some made ∧
        made.load situation.host.nesting situation.disk = .ok (gate, found) := by
  obtain ⟨_, _, made, found, alsoRead, logs, makes, loads⟩ := works.loads
  rw [read] at alsoRead
  cases alsoRead
  exact ⟨made, found, logs, makes, loads⟩

/-- A run works with one gate. -/
theorem WorksWith.unique (works : WorksWith situation invocation gate)
    (also : WorksWith situation invocation loaded) : gate = loaded := by
  obtain ⟨remarks, settings, made, found, read, -, makes, loads⟩ := works.loads
  obtain ⟨other, _, -, alsoMakes, alsoLoads⟩ := also.exists_made read
  rw [makes] at alsoMakes
  cases alsoMakes
  rw [loads] at alsoLoads
  cases alsoLoads
  rfl

/-- A run that comes to no gate. -/
theorem Ends.of_none (none : ∀ gate, ¬ WorksWith situation invocation gate)
    (same : outcome.disk = situation.disk) (fails : outcome.ending ≠ .exit .success) :
    Ends situation invocation outcome :=
  .unchanged same (fun gate _ works => absurd works (none gate)) fun ended => absurd ended fails

theorem isDryRun_of_plan {command : Command} (called : command.call? situation = some call)
    {text? : Option (List Char)}
    (planned : Call.plan gate text? call = .settle (.exit .success)) : command.IsDryRun := by
  cases command with
  | check path endings json snippets => cases called
  | history file => cases called
  | edit request =>
      simp only [call?] at called
      split at called
      next =>
        cases called
        simp only [Call.plan, Call.planFor, Call.editPlan] at planned
        split at planned
        · split at planned
          · split at planned
            · split at planned <;> cases planned
            · split at planned
              · cases planned
              · split at planned
                next dry => exact dry
                next => cases planned
          · cases planned
        · cases planned
      next => cases called
  | undo file steps yes =>
      cases called
      simp only [Call.plan, Call.planFor, Call.undoPlan] at planned
      split at planned
      · split at planned
        · split at planned
          · cases planned
          · split at planned <;> cases planned
        · cases planned
      · cases planned

/-- Where the call of a run is carried out and something is stored for the history, these are the
places at which the disk changes. -/
theorem Carries.disk_of_put {next : Gate} {path : Path} {text : List Char}
    {written middle after : Disk} (carries : Carries situation invocation next path text written)
    (grows : Disk.Grows written middle)
    (notDirectory : middle.item? next.historyPath ≠ some .directory) {octets : List UInt8}
    (kept : after = middle.put next.historyPath (.file octets)) :
    (path ≠ next.historyPath → after.item? path = some (.file (Utf8.encode text))) ∧
      after.item? next.historyPath = some (.file octets) ∧
      Disk.ChangedOnlyAt [next.historyPath, path, path.extendName Workspace.besideEnding]
        situation.disk after := by
  subst kept
  refine ⟨fun apart => ?_, Disk.item?_put_self (Disk.ne_nil_of_item? notDirectory) _,
    (carries.file.changedOnlyAt grows).put _ _⟩
  rw [Disk.item?_put_of_ne apart]
  exact grows.item?_file carries.file.file

/-- A run that has written its file and can store nothing of the history. -/
theorem Ends.of_unsaved {next : Gate} {path : Path} {text : List Char} {written middle : Disk}
    {cause : Gate.SaveError} (carries : Carries situation invocation next path text written)
    (grows : Disk.Grows written middle)
    (failed : next.saveOn situation.host.device written = (middle, .error cause))
    (follows : Follows situation.host situation.disk
      (Call.saveLast situation.host.device next written) outcome) :
    Ends situation invocation outcome := by
  rw [Call.saveLast, failed] at follows
  cases follows with
  | cutShort refused ended same => exact .unshown refused ended same
  | untold _ exits => cases exits
  | reached ended left =>
      refine .unsaved carries ended (failed.trans (by rw [left])) ?_ ?_
      · rw [left]
        exact grows.item?_file carries.file.file
      · rw [left]
        exact carries.file.changedOnlyAt grows

/-- A run that has written its file and then saves the history. -/
theorem Ends.of_write {next : Gate} {path : Path} {text : List Char} {written : Disk}
    (carries : Carries situation invocation next path text written)
    (follows : Follows situation.host situation.disk
      (Call.saveLast situation.host.device next written) outcome) :
    Ends situation invocation outcome := by
  obtain ⟨middle, grows, ⟨cause, failed⟩ | ⟨stored, spelt, notDirectory, -, delivered⟩⟩ :=
    next.saveOn_cases written
  · exact of_unsaved carries grows (failed _) follows
  have saved := delivered situation.host.device
  cases came : situation.host.device next.historyPath (Utf8.encode stored) with
  | whole =>
      rw [came, Gate.deliver] at saved
      rw [Call.saveLast, saved] at follows
      have committed (well : EndsWell situation.host outcome.ending)
          (left : outcome.disk = middle.put next.historyPath (.file (Utf8.encode stored))) :
          Ends situation invocation outcome := by
        obtain ⟨file, history, only⟩ := carries.disk_of_put grows notDirectory left
        exact .committed carries well file spelt history only
      cases follows with
      | cutShort refused ended same => exact .unshown refused ended same
      | untold refused _ ended left => exact committed (.inr ⟨_, refused, ended⟩) left
      | reached ended left => exact committed (.inl ended) left
  | cut count reason =>
      rw [came] at saved
      cases count with
      | none => exact of_unsaved carries grows saved follows
      | some count =>
          rw [Gate.deliver] at saved
          rw [Call.saveLast, saved] at follows
          cases follows with
          | cutShort refused ended same => exact .unshown refused ended same
          | untold _ exits => cases exits
          | reached ended left =>
              obtain ⟨file, history, only⟩ := carries.disk_of_put grows notDirectory left
              exact .torn carries came ended file spelt history only

/-- A run that does not come to write ends as its call does, which changes nothing. -/
theorem Ends.of_settled (works : WorksWith situation invocation gate)
    (called : invocation.command.call? situation = some call) {ending : Ending}
    (serves : call.serve ⟨gate, situation.disk⟩ = (ending, ⟨gate, situation.disk⟩))
    (dry : ending = .exit .success → invocation.command.IsDryRun)
    (follows : Follows situation.host situation.disk (ending, situation.disk) outcome) :
    Ends situation invocation outcome := by
  cases follows with
  | cutShort refused ended same => exact .unshown refused ended same
  | untold refused _ ended same => exact .unshown refused ended same
  | reached ended same =>
      refine .unchanged same (fun other also otherWorks alsoCalled => ?_) fun success =>
        dry (ended.symm.trans success)
      rw [called] at alsoCalled
      cases alsoCalled
      rw [otherWorks.unique works, serves, ended]

theorem failureCode_ne_success (call : Call) : call.failureCode ≠ .success := by
  cases call <;> nofun

/-- A run whose call is planned. -/
theorem Ends.of_plan (works : WorksWith situation invocation gate)
    (called : invocation.command.call? situation = some call)
    (follows : Follows situation.host situation.disk
      ((Call.plan gate (gate.workspace.read situation.disk call.name).toOption call).finish
        situation.host.device gate situation.disk call) outcome) :
    Ends situation invocation outcome := by
  have served := Call.serve_eq_carryOut ⟨gate, situation.disk⟩ call
  cases planned : Call.plan gate (gate.workspace.read situation.disk call.name).toOption call with
  | settle ending =>
      rw [planned] at follows served
      refine of_settled works called served (fun success => ?_) follows
      subst success
      exact isDryRun_of_plan called planned
  | write text history =>
  obtain ⟨current, found⟩ := Call.exists_text_of_plan planned
  have readable := Gate.eq_ok_of_toOption found
  obtain ⟨path, octets, leads, -, -⟩ := Workspace.read_eq_ok_iff.1 readable
  obtain ⟨old, file⟩ := leads.item?_of_read readable
  have carries {written : Disk}
      (wrote : gate.workspace.write situation.disk call.name text = (written, .ok ())) :
      Carries situation invocation { gate with history := history } path text written :=
    ⟨⟨gate, call, works, called, leads, Call.serve_of_plan planned wrote⟩,
      leads.onlyWritten wrote⟩
  have fails : (.exit call.failureCode : Ending) ≠ .exit .success := by
    simpa using failureCode_ne_success call
  rw [planned, Call.Plan.finish] at follows
  rcases leads.writeOn_cases situation.host.device text with
    same | ⟨count, reason, cut, broken, possible⟩
  · rw [same] at follows
    rcases wrote : gate.workspace.write situation.disk call.name text with ⟨written, cause | ⟨⟩⟩
    · obtain rfl := leads.eq_of_write_error readable wrote
      rw [wrote] at follows
      refine of_settled works called ?_ (fun success => absurd success fails) follows
      simp only [served, planned, Call.Plan.carryOut, wrote]
    · rw [wrote] at follows
      exact of_write (carries wrote) follows
  · rw [broken] at follows
    have done := possible (by simp [file])
    have whole := carries (Prod.ext rfl done)
    cases follows with
    | cutShort refused ended same => exact .unshown refused ended same
    | untold _ _ ended left =>
        refine .unwritten whole cut ?_ left
        simp [ended]
    | reached ended left =>
        refine .unwritten whole cut ?_ left
        rw [ended]
        exact fails

/-- A run that finds its settings. -/
theorem ends_runIn (unasked : invocation.command.IsUnasked)
    (given : invocation.workspace.isSome = true)
    (nameable : (workspaceRoute invocation).isNameable = true) {remarks : List String}
    {settings : Settings}
    (read : Settings.ofDisk situation.host.document situation.disk situation.here
      (settingsRoute situation.here invocation) = .ok (remarks, .ok settings))
    (logs : situation.host.logs settings.logLevel = true) :
    Ends situation invocation
      (runIn situation (rootOf situation.here invocation) settings invocation.command) := by
  obtain ⟨next, gated⟩ : ∃ next, runIn situation (rootOf situation.here invocation) settings
      invocation.command = runGated situation (rootOf situation.here invocation) settings next := by
    cases command : invocation.command with
    | check path endings json snippets | history file =>
        rw [command] at unasked
        cases unasked
    | edit request => exact ⟨_, rfl⟩
    | undo file steps yes => exact ⟨_, rfl⟩
  cases makes : Gate.ofSettings? (.ofPath (rootOf situation.here invocation)) settings with
  | none =>
      rw [gated, runGated, makes]
      refine Ends.of_none (fun gate works => ?_) rfl (fun ended => by cases ended)
      obtain ⟨made, found, -, alsoMakes, -⟩ := works.exists_made read
      rw [makes] at alsoMakes
      cases alsoMakes
  | some made =>
  cases loads : made.load situation.host.nesting situation.disk with
  | error cause =>
      by_cases half : cause = .halfPair
      · subst half
        obtain ⟨octets, found, halved⟩ := Gate.exists_not_holdsNoHalf loads
        exact .halved read makes found halved
      · simp only [gated, runGated, makes, loads]
        refine Ends.of_none (fun gate works => ?_) rfl (fun ended => by cases ended)
        obtain ⟨other, found, -, alsoMakes, alsoLoads⟩ := works.exists_made read
        rw [makes] at alsoMakes
        cases alsoMakes
        rw [loads] at alsoLoads
        cases alsoLoads
  | ok result =>
  obtain ⟨gate, found⟩ := result
  have works : WorksWith situation invocation gate :=
    ⟨given, nameable, remarks, settings, made, found, read, logs, makes, loads⟩
  cases called : invocation.command.call? situation with
  | none =>
      obtain ⟨same, fails⟩ := runIn_of_call?_eq_none makes loads unasked called
      refine .unchanged same (fun _ _ _ alsoCalled => ?_) fun ended => absurd ended fails
      rw [called] at alsoCalled
      cases alsoCalled
  | some call => exact Ends.of_plan works called (follows_runIn makes loads unasked called)

/-- A run of the program that is to write without asking first changes nothing, or writes its file
and the history, or breaks off after its file was written because the history cannot be stored as a
whole. This is so on every host: whatever its console can show and wherever its device breaks
off. Only runs that find a stored history with half of a pair alone are set apart. -/
theorem ends_run {arguments : List String}
    (asked : Invocation.ofArguments arguments = .ok invocation)
    (unasked : invocation.command.IsUnasked) (situation : Situation) :
    Ends situation invocation (run situation arguments) := by
  rw [run_eq_runInvocation asked]
  simp only [runInvocation]
  cases given : invocation.workspace.isNone with
  | true =>
      refine Ends.of_none (fun gate works => ?_) rfl (fun ended => by cases ended)
      rw [← Option.not_isSome, works.given] at given
      cases given
  | false =>
  cases nameable : (workspaceRoute invocation).isNameable with
  | false =>
      refine Ends.of_none (fun gate works => ?_) rfl (fun ended => by cases ended)
      rw [works.nameable] at nameable
      cases nameable
  | true =>
  cases read : Settings.ofDisk situation.host.document situation.disk situation.here
      (settingsRoute situation.here invocation) with
  | error cause =>
      refine Ends.of_none (fun gate works => ?_) rfl (fun ended => by cases ended)
      obtain ⟨_, _, _, _, alsoRead, -⟩ := works.loads
      rw [read] at alsoRead
      cases alsoRead
  | ok result =>
  obtain ⟨remarks, error | settings⟩ := result
  · obtain ⟨same, fails⟩ := say_usage situation
      ("[bold red]CONFIG ERROR:[/bold red] " ++ error.message)
    refine Ends.of_none (fun gate works => ?_) same fails
    obtain ⟨_, _, _, _, alsoRead, -⟩ := works.loads
    rw [read] at alsoRead
    cases alsoRead
  cases logs : situation.host.logs settings.logLevel with
  | true =>
      simp only [Bool.not_true, Bool.false_eq_true, if_false, if_true, logs]
      exact ends_runIn unasked (Option.isNone_eq_false_iff.1 given) nameable read logs
  | false =>
      simp only [Bool.not_true, Bool.false_eq_true, if_false, logs]
      refine Ends.of_none (fun gate works => ?_) rfl (fun ended => by cases ended)
      obtain ⟨made, found, alsoLogs, -⟩ := works.exists_made read
      rw [logs] at alsoLogs
      cases alsoLogs

open Tandem (Sample.inserting Sample.disk) in
/-- A run that inserts a line and stores the history. -/
theorem ends_run_inserting :
    Invocation.ofArguments Sample.inserting.arguments = .ok Sample.inserting.invocation ∧
      Sample.inserting.invocation.command.IsUnasked ∧
      (Sample.inserting.run Sample.disk).ending = .exit .success ∧
      Ends (Sample.inserting.situation Sample.disk) Sample.inserting.invocation
        (Sample.inserting.run Sample.disk) :=
  ⟨Sample.inserting.asked, Sample.inserting.unasked, Tandem.Sample.step_inserting.1,
    ends_run Sample.inserting.asked Sample.inserting.unasked _⟩

end Ends

end Command

namespace Tandem.Sample

/-- The workspace with a directory where the history is to be stored. -/
def blocked : Disk :=
  ⟨[(["w"], .directory), (["w", "main.lua"], .file []), (["w", ".luaguard"], .directory),
    (["w", ".luaguard", "history.json"], .directory)]⟩

/-- That workspace once the line was inserted. -/
def writtenBlocked : Disk := (gate.workspace.write blocked "main.lua" "b".toList).1

theorem load_blocked (nesting : ℕ) : gate.load nesting blocked = .ok (gate, false) := by
  have held : blocked.holds [] gate.historyRoute = .ok true := rfl
  have unread : blocked.read [] gate.historyRoute =
      .error ⟨.isDirectory, gate.historyRoute.text⟩ := rfl
  simp only [Gate.load, held, unread, Except.mapError, bind, Except.bind]
  rfl

theorem plan_blocked :
    Call.plan gate (gate.workspace.read blocked "main.lua").toOption (insertion .null) =
      .write "b".toList (recorded .null) := by
  have possible : Gate.CanCommit gate.workspace gate.policy blocked "main.lua" (edit .null) []
      "b".toList writtenBlocked :=
    ⟨rfl, rfl, (canCommit_edit .null).valid, rfl⟩
  rw [insertion, Call.plan_of_canCommit possible leads_main rfl, record_edit]

theorem finish_blocked :
    ((inserting.run blocked).ending, (inserting.run blocked).disk) =
      Call.saveLast .sound (edited .null) writtenBlocked := by
  have starts : inserting.Starts gate blocked := starts_job rfl
  have wrote : gate.workspace.writeOn .sound blocked "main.lua" "b".toList =
      (writtenBlocked, .ok ()) := rfl
  have finish : Call.Plan.finish .sound gate blocked (insertion .null) (.write "b".toList
      (recorded .null)) = Call.saveLast .sound (edited .null) writtenBlocked := by
    simp only [Call.Plan.finish, insertion, Call.name, wrote, edited]
  rw [← finish, ← plan_blocked]
  exact finish_run rfl starts (fun nesting _ => load_blocked nesting) (call?_inserting blocked)

/-- The stored text is not looked at here either. -/
theorem computed_blocked :
    ((edited .null).save writtenBlocked).2.toOption = none ∧
      ((edited .null).save writtenBlocked).1.item? ["w", "main.lua"] =
        some (.file (Utf8.encode "b".toList)) ∧
      ((edited .null).save writtenBlocked).1.item? gate.historyPath = some .directory := by
  decide +kernel

/-- The line is inserted, but the run breaks off, and nothing is stored for taking it back. -/
theorem written_without_history :
    (∃ cause, (inserting.run blocked).ending = .fault (.save cause)) ∧
      blocked.item? ["w", "main.lua"] = some (.file []) ∧
      (inserting.run blocked).disk.item? ["w", "main.lua"] =
        some (.file (Utf8.encode "b".toList)) ∧
      (inserting.run blocked).disk.item? gate.historyPath = some .directory := by
  obtain ⟨unsaved, line, directory⟩ := computed_blocked
  have finishes := finish_blocked
  rw [Call.saveLast] at finishes
  rw [Gate.save] at unsaved line directory
  rcases saves : (edited .null).saveOn .sound writtenBlocked with ⟨after, cause | ⟨⟩⟩
  · rw [saves] at finishes line directory
    obtain ⟨ended, left⟩ := Prod.mk.inj finishes
    rw [left]
    exact ⟨⟨cause, ended⟩, rfl, line, directory⟩
  · rw [saves] at unsaved
    cases unsaved

end Tandem.Sample

end EditGate

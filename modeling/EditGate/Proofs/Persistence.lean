import EditGate.Proofs.Calls
import EditGate.Proofs.Mirrors
import EditGate.Proofs.Splicing
import EditGate.Proofs.Validity
import Mathlib

/-!
# Persistence

Every run of the program makes its gate anew: it loads the history before a command and saves it
after a write. Beside it stands one gate that goes on and is called as the runs call theirs. Step by
step both have the same files, and what the next run would load is the history of the gate that goes
on.
-/

namespace EditGate

open Command (Ending ExitCode Situation)

/-! ## What a call adds to a history -/

namespace Call

variable {gate : Gate} {text? : Option (List Char)} {call : Call} {text : List Char}
  {history : History}

/-- Nothing is written unless the file was read. -/
theorem planFor_eq_write {name : String} {failure : ExitCode}
    {next : String → List Char → Plan}
    (planned : planFor gate name text? failure next = .write text history) :
    ∃ key current, text? = some current ∧ next key current = .write text history := by
  unfold planFor at planned
  split at planned
  · cases keyed : gate.workspace.key name with
    | error refusal => simp [keyed] at planned
    | ok key =>
        cases text? with
        | none => simp [keyed] at planned
        | some current => exact ⟨key, current, rfl, by simpa [keyed] using planned⟩
  · cases planned

theorem editPlan_eq_write {now : Binary64} {key : String} {edit : Edit} {mode : Gate.Mode}
    {current : List Char}
    (planned : editPlan gate now key edit mode current = .write text history) :
    (∃ new, edit.apply current = .ok new) ∧
      gate.history.record now key current text (some edit) = history := by
  rw [editPlan, Report.ofEdit] at planned
  cases applied : edit.apply current with
  | error cause => simp [applied, Except.map] at planned
  | ok new =>
      refine ⟨⟨new, rfl⟩, ?_⟩
      simp only [applied, Except.map] at planned
      split at planned
      · cases planned
      · split at planned
        · cases planned
        · cases planned
          rfl

theorem undoPlan_eq_write {key : String} {steps : Value} {current : List Char}
    (planned : undoPlan gate key steps current = .write text history) :
    gate.history.rollback key steps (.str (String.ofList current)) = .ok (text, history) := by
  rw [undoPlan] at planned
  split at planned
  · cases planned
  · split at planned
    · cases planned
    · cases planned
    · cases planned
    next undone =>
      cases planned
      exact undone

theorem exists_text_of_plan (planned : plan gate text? call = .write text history) :
    ∃ current, text? = some current := by
  cases call with
  | apply now name edit mode =>
      obtain ⟨-, current, found, -⟩ := planFor_eq_write planned
      exact ⟨current, found⟩
  | rollback name steps =>
      obtain ⟨-, current, found, -⟩ := planFor_eq_write planned
      exact ⟨current, found⟩

/-- A call whose edit, if it is carried out, can be read back from data. -/
def IsStorable : Call → Prop
  | apply now _ edit _ => now.IsCanonical ∧ edit.payload.IsPlain 1 ∧
      (edit.last = .null ∨ (∃ line, edit.last = .int line) ∨
        edit.last = .list [] ∧ edit.operation ≠ .insert)
  | rollback _ _ => True

/-- The history after a call can be stored as the one before it can. -/
theorem IsStorable.history_of_plan (storable : call.IsStorable)
    (planned : plan gate text? call = .write text history) (before : gate.history.IsStorable) :
    history.IsStorable ∧ history.capacity = gate.history.capacity := by
  cases call with
  | apply now name edit mode =>
      obtain ⟨key, current, -, edits⟩ := planFor_eq_write planned
      obtain ⟨⟨new, applied⟩, rfl⟩ := editPlan_eq_write edits
      obtain ⟨canonical, payload, last⟩ := storable
      have readable : edit.IsStorable := by
        refine ⟨?_, payload⟩
        rcases last with nothing | line | ⟨words, covers⟩
        · exact Or.inl nothing
        · exact Or.inr line
        · have number := (Edit.fits_of_apply_eq_ok applied).lastIsNumber covers
          simp [Edit.lastIsNumber, Edit.lastValue, words, Value.number?] at number
      refine ⟨before.record canonical key current text ?_, rfl⟩
      rintro given ⟨⟩
      exact readable
  | rollback name steps =>
      obtain ⟨key, current, -, undoes⟩ := planFor_eq_write planned
      obtain ⟨count, rfl⟩ := History.rollback_eq_ok (undoPlan_eq_write undoes)
      exact ⟨before.drop key count text, rfl⟩

end Call

/-! ## Jobs -/

/-- A run of the program, on whatever disk, that is to edit a file or to take edits back and does
not ask first. -/
structure Job where
  host : Command.Host
  here : Path
  input : List Char
  answers : List (Option String)
  now : Binary64
  arguments : List String
  invocation : Invocation
  /-- This is what the arguments mean. -/
  asked : Invocation.ofArguments arguments = .ok invocation
  unasked : invocation.command.IsUnasked
  /-- The clock shows a number of the number format. -/
  canonical : now.IsCanonical

namespace Job

variable {gate : Gate} {disk : Disk} {job : Job}

/-- What the run starts from. -/
def situation (job : Job) (disk : Disk) : Situation where
  host := job.host
  disk := disk
  here := job.here
  input := job.input
  answers := job.answers
  now := job.now

/-- Runs the program. -/
def run (job : Job) (disk : Disk) : Command.Outcome :=
  Command.run (job.situation disk) job.arguments

/-- The call that the run makes, unless it ends before. -/
def call? (job : Job) (disk : Disk) : Option Call :=
  job.invocation.command.call? (job.situation disk)

/-- The run is about the workspace of a gate and finds the settings of the gate, and the log can be
set up at their level. -/
structure Starts (gate : Gate) (disk : Disk) (job : Job) : Prop where
  given : job.invocation.workspace.isSome = true
  nameable : (Command.workspaceRoute job.invocation).isNameable = true
  workspace : Workspace.ofPath (Command.rootOf job.here job.invocation) = gate.workspace
  settings : ∃ remarks, Settings.ofDisk job.host.document disk job.here
    (Command.settingsRoute job.here job.invocation) = .ok (remarks, .ok gate.settings)
  logs : job.host.logs gate.settings.logLevel = true

theorem Starts.run_eq (starts : job.Starts gate disk) :
    job.run disk = Command.runIn (job.situation disk) (Command.rootOf job.here job.invocation)
      gate.settings job.invocation.command := by
  obtain ⟨remarks, found⟩ := starts.settings
  rw [run, Command.run_eq_runInvocation job.asked]
  simp only [Command.runInvocation, situation, found, starts.nameable, starts.logs,
    Option.isNone_eq_false_iff.2 starts.given]
  rfl

section Loaded

variable {loaded : Gate} {found : Bool} {call : Call} (starts : job.Starts gate disk)
  (made : Gate.ofSettings? gate.workspace gate.settings = some gate)
  (loads : gate.load job.host.nesting disk = .ok (loaded, found))

include starts made loads

/-- A run ends as the plan of its call does, unless something cannot be shown. -/
theorem Starts.follows_run (called : job.call? disk = some call) :
    Command.Follows job.host disk
      ((Call.plan loaded (loaded.workspace.read disk call.name).toOption call).finish
        job.host.device loaded disk call) (job.run disk) := by
  rw [← starts.workspace] at made
  rw [starts.run_eq]
  have situated : gate.load (job.situation disk).host.nesting (job.situation disk).disk =
      .ok (loaded, found) := loads
  exact Command.follows_runIn made situated job.unasked called

theorem Starts.disk_run (uncalled : job.call? disk = none) : (job.run disk).disk = disk := by
  rw [← starts.workspace] at made
  rw [starts.run_eq]
  have situated : gate.load (job.situation disk).host.nesting (job.situation disk).disk =
      .ok (loaded, found) := loads
  exact (Command.runIn_of_call?_eq_none made situated job.unasked uncalled).1

/-- A run ends as the plan of its call does if all can be shown. -/
theorem Starts.finish_run (called : job.call? disk = some call)
    (shows : ∀ item, job.host.Refuses item → (job.run disk).ending ≠ .fault (.unshown item)) :
    ((job.run disk).ending, (job.run disk).disk) =
      (Call.plan loaded (loaded.workspace.read disk call.name).toOption call).finish
        job.host.device loaded disk call := by
  cases starts.follows_run made loads called with
  | reached ends leaves => exact Prod.ext ends leaves
  | cutShort refused broken _ => exact absurd broken (shows _ refused)
  | untold refused _ broken _ => exact absurd broken (shows _ refused)

/-- A run whose call settles without a write. -/
theorem Starts.run_of_settle (called : job.call? disk = some call)
    (shows : ∀ item, job.host.Refuses item → (job.run disk).ending ≠ .fault (.unshown item))
    {ending : Ending}
    (planned : Call.plan loaded (loaded.workspace.read disk call.name).toOption call =
      .settle ending) :
    (job.run disk).ending = ending ∧ (job.run disk).disk = disk := by
  have finishes := starts.finish_run made loads called shows
  rw [planned] at finishes
  exact Prod.mk.inj finishes

/-- A run that writes its file ends with saving the history. -/
theorem Starts.run_of_write (called : job.call? disk = some call)
    (shows : ∀ item, job.host.Refuses item → (job.run disk).ending ≠ .fault (.unshown item))
    {text : List Char} {history : History} {written : Disk}
    (planned : Call.plan loaded (loaded.workspace.read disk call.name).toOption call =
      .write text history)
    (wrote : loaded.workspace.writeOn job.host.device disk call.name text = (written, .ok ())) :
    ((job.run disk).ending, (job.run disk).disk) =
      Call.saveLast job.host.device { loaded with history := history } written := by
  have finishes := starts.finish_run made loads called shows
  rwa [planned, Call.Plan.finish, wrote] at finishes

end Loaded

/-- The run is not disturbed: it starts with a gate, keeps off the stored history, can write what it
comes to write and show what it comes to show. No insertion has its last line taken out. -/
structure IsFair (gate : Gate) (disk : Disk) (job : Job) : Prop where
  starts : job.Starts gate disk
  nesting : History.levels ≤ job.host.nesting
  last : ∀ request, job.invocation.command = .edit request →
    request.operation = some .insert → request.last ≠ .list []
  elsewhere : ∀ call, job.call? disk = some call →
    ∀ path, gate.workspace.Leads call.name path → path ≠ gate.historyPath
  writes : ∀ call, job.call? disk = some call →
    ∀ loaded found, gate.load job.host.nesting disk = .ok (loaded, found) →
      ¬ call.FailsToWrite job.host.device loaded disk
  saves : ∀ cause, (job.run disk).ending ≠ .fault (.save cause)
  shows : ∀ item, (job.run disk).ending ≠ .fault (.unshown item)

/-- The new text of an edit is simple data, wherever it comes from. -/
theorem isPlain_of_newText {situation : Situation} {request : EditRequest}
    (askable : Command.IsAskable request) {payload : Value}
    (given : Command.newText situation request.source = .ok payload) : payload.IsPlain 1 := by
  cases source : request.source with
  | given value =>
      rw [source] at given
      cases given
      exact askable.payload _ source
  | input =>
      rw [source] at given
      cases given
      exact .str 1 _
  | file name =>
      simp only [source, Command.newText, bind, Except.bind] at given
      split at given
      · cases given
      · split at given
        · cases given
        · cases given
          exact .str 1 _

theorem IsFair.isStorable (fair : job.IsFair gate disk) {call : Call}
    (called : job.call? disk = some call) : call.IsStorable := by
  rw [call?] at called
  cases command : job.invocation.command with
  | check path endings json snippets => simp [command, Command.call?] at called
  | history file => simp [command, Command.call?] at called
  | undo file steps yes =>
      simp only [command, Command.call?, Option.some.injEq] at called
      subst called
      trivial
  | edit request =>
      have askable := Command.isAskable_of_invocation job.asked command
      simp only [command, Command.call?] at called
      split at called
      next payload operation first given isOperation isFirst =>
        cases called
        refine ⟨job.canonical, isPlain_of_newText askable given, ?_⟩
        rcases askable.last with nothing | line | words
        · exact Or.inl nothing
        · exact Or.inr (Or.inl line)
        · refine Or.inr (Or.inr ⟨words, ?_⟩)
          rintro rfl
          exact fair.last request command isOperation words
      · cases called

end Job

/-! ## In step -/

/-- A disk on which the program is run time and again, and a session that goes on. -/
structure Tandem where
  disk : Disk
  session : Gate.Session

namespace Tandem

variable {gate : Gate} {tandem : Tandem} {job : Job}

/-- Both start from one disk. -/
def start (gate : Gate) (disk : Disk) : Tandem :=
  ⟨disk, ⟨gate, disk⟩⟩

/-- A job is run, and the session serves the call that it makes. -/
def step (tandem : Tandem) (job : Job) : Tandem where
  disk := (job.run tandem.disk).disk
  session := match job.call? tandem.disk with
    | some call => (call.serve tandem.session).2
    | none => tandem.session

/-- Jobs are run one after the other. -/
def run (tandem : Tandem) (jobs : List Job) : Tandem :=
  jobs.foldl step tandem

/-- No job is disturbed. -/
def IsFair (gate : Gate) (tandem : Tandem) : List Job → Prop
  | [] => True
  | job :: rest => job.IsFair gate tandem.disk ∧ (tandem.step job).IsFair gate rest

theorem isFair_append {jobs later : List Job} :
    tandem.IsFair gate (jobs ++ later) ↔
      tandem.IsFair gate jobs ∧ (tandem.run jobs).IsFair gate later := by
  induction jobs generalizing tandem with
  | nil => simp [IsFair, run]
  | cons job rest ih => simp [IsFair, run, ih, and_assoc]

/-- The program and the session are in step: they have the same files apart from the stored history,
and from the disk a run that allows for the levels of a history would load the gate of the
session. -/
structure InStep (gate : Gate) (tandem : Tandem) : Prop where
  mirrors : Disk.Mirrors gate.historyPath tandem.disk tandem.session.disk
  loads : ∃ found, ∀ nesting ≥ History.levels,
    gate.load nesting tandem.disk = .ok (tandem.session.gate, found)
  rules : ∃ history, tandem.session.gate = { gate with history := history }
  storable : tandem.session.gate.history.IsStorable
  capacity : tandem.session.gate.history.capacity = gate.history.capacity

theorem inStep_start (made : Gate.ofSettings? gate.workspace gate.settings = some gate)
    {disk : Disk} (tree : disk.IsTree) (missing : disk.item? gate.historyPath = none)
    (looks : disk.holds [] gate.historyRoute = .ok false) : (start gate disk).InStep gate where
  mirrors := Disk.mirrors_self tree missing
  loads := ⟨false, fun _ _ => by
    simp [start, Gate.load, looks, Except.mapError, bind, Except.bind]⟩
  rules := ⟨gate.history, rfl⟩
  storable := by
    rw [Gate.ofSettings?, Option.map_eq_some_iff] at made
    obtain ⟨policy, -, made⟩ := made
    rw [start, ← made]
    exact History.isStorable_empty rfl
  capacity := rfl

/-- A saved history keeps the program in step with the session that has it. -/
theorem InStep.of_save (inStep : tandem.InStep gate) {history : History}
    (storable : history.IsStorable) (capacity : history.capacity = gate.history.capacity)
    {written other after : Disk} (mirrors : Disk.Mirrors gate.historyPath written other)
    (saved : ({ tandem.session.gate with history := history } : Gate).save written =
      (after, .ok ())) :
    InStep gate ⟨after, ⟨{ tandem.session.gate with history := history }, other⟩⟩ := by
  obtain ⟨former, rules⟩ := inStep.rules
  simp only [rules] at saved ⊢
  have still := Gate.mirrors_of_save (by exact mirrors) saved
  exact {
    mirrors := still
    loads := ⟨true, fun _ deep => Gate.load_of_save deep saved storable rfl capacity.symm⟩
    rules := ⟨history, rfl⟩
    storable := storable
    capacity := capacity }

/-- A job that makes a call ends as the call does, and both stay in step. -/
theorem InStep.step_of_call (inStep : tandem.InStep gate)
    (made : Gate.ofSettings? gate.workspace gate.settings = some gate)
    (fair : job.IsFair gate tandem.disk) {call : Call}
    (called : job.call? tandem.disk = some call) :
    (job.run tandem.disk).ending = (call.serve tandem.session).1 ∧
      (tandem.step job).InStep gate := by
  obtain ⟨found, loads⟩ := inStep.loads
  have loaded := loads _ fair.nesting
  have shows : ∀ item, job.host.Refuses item →
      (job.run tandem.disk).ending ≠ .fault (.unshown item) := fun item _ => fair.shows item
  have workspace : tandem.session.gate.workspace = gate.workspace := by
    obtain ⟨history, rules⟩ := inStep.rules
    rw [rules]
  have elsewhere : ∀ path, tandem.session.gate.workspace.Leads call.name path →
      path ≠ gate.historyPath := by
    rw [workspace]
    exact fair.elsewhere call called
  have served := call.serve_eq_carryOut tandem.session
  rw [← Workspace.toOption_read_eq inStep.mirrors elsewhere] at served
  cases planned : Call.plan tandem.session.gate
      (tandem.session.gate.workspace.read tandem.disk call.name).toOption call with
  | settle ending =>
      obtain ⟨ends, kept⟩ := fair.starts.run_of_settle made loaded called shows planned
      rw [planned] at served
      have steady : tandem.step job = tandem := by
        simp only [step, called, served, kept, Call.Plan.carryOut]
      rw [steady, served]
      exact ⟨ends, inStep⟩
  | write text history =>
      obtain ⟨current, readable⟩ := Call.exists_text_of_plan planned
      obtain ⟨written, wrote⟩ :=
        Call.exists_writeOn_of_plan planned (fair.writes call called _ found loaded)
      obtain ⟨other, alsoWrote, mirrors⟩ := Workspace.exists_write_of_mirrors inStep.mirrors
        elsewhere (Gate.eq_ok_of_toOption readable) (Workspace.write_of_writeOn wrote)
      obtain ⟨storable, capacity⟩ :=
        (fair.isStorable called).history_of_plan planned inStep.storable
      have finishes := fair.starts.run_of_write made loaded called shows planned wrote
      rcases saved : ({ tandem.session.gate with history := history } : Gate).saveOn
        job.host.device written with ⟨after, cause | ⟨⟩⟩
      · simp only [Call.saveLast, saved] at finishes
        exact absurd (Prod.mk.inj finishes).1 (fair.saves cause)
      · simp only [Call.saveLast, saved] at finishes
        obtain ⟨ends, kept⟩ := Prod.mk.inj finishes
        rw [planned] at served
        simp only [Call.Plan.carryOut, alsoWrote] at served
        have moved : tandem.step job =
            ⟨after, ⟨{ tandem.session.gate with history := history }, other⟩⟩ := by
          simp only [step, called, served, kept]
        rw [moved, served]
        exact ⟨ends, inStep.of_save storable (capacity.trans inStep.capacity) mirrors
          (Gate.save_of_saveOn saved)⟩

/-- A job that makes no call changes nothing. -/
theorem InStep.step_eq_self (inStep : tandem.InStep gate)
    (made : Gate.ofSettings? gate.workspace gate.settings = some gate)
    (fair : job.IsFair gate tandem.disk) (uncalled : job.call? tandem.disk = none) :
    tandem.step job = tandem := by
  obtain ⟨found, loads⟩ := inStep.loads
  have kept := fair.starts.disk_run made (loads _ fair.nesting) uncalled
  simp only [step, uncalled, kept]

theorem InStep.step (inStep : tandem.InStep gate)
    (made : Gate.ofSettings? gate.workspace gate.settings = some gate)
    (fair : job.IsFair gate tandem.disk) : (tandem.step job).InStep gate := by
  cases called : job.call? tandem.disk with
  | none =>
      rw [inStep.step_eq_self made fair called]
      exact inStep
  | some call => exact (inStep.step_of_call made fair called).2

theorem InStep.run (inStep : tandem.InStep gate)
    (made : Gate.ofSettings? gate.workspace gate.settings = some gate) {jobs : List Job}
    (fair : tandem.IsFair gate jobs) : (tandem.run jobs).InStep gate := by
  induction jobs generalizing tandem with
  | nil => exact inStep
  | cons job rest ih => exact ih (inStep.step made fair.1) fair.2

end Tandem

/-- A result beside other data is known by computing it alone. -/
theorem Gate.eq_mk_of_toOption {ε α β : Type} {outcome : α × Except ε β} {value : β}
    (computed : outcome.2.toOption = some value) : outcome = (outcome.1, .ok value) := by
  rw [← eq_ok_of_toOption computed]

namespace Tandem.Sample

/-- The number one. -/
def now : Binary64 := .finite false 4503599627370496 (-52)

/-- A workspace with an empty file. -/
def disk : Disk :=
  ⟨[(["w"], .directory), (["w", "main.lua"], .file [])]⟩

theorem isSome_policy? : Settings.standard.policy?.isSome = true := rfl

/-- The gate of that workspace. -/
def gate : Gate where
  workspace := .ofPath ["w"]
  settings := .standard
  policy := Settings.standard.policy?.get isSome_policy?
  history := .ofSettings .standard

theorem made_gate : Gate.ofSettings? gate.workspace gate.settings = some gate := by
  rw [Gate.ofSettings?, Option.map_eq_some_iff]
  exact ⟨gate.policy, Option.eq_some_of_isSome isSome_policy?, rfl⟩

theorem leads_main : gate.workspace.Leads "main.lua" ["w", "main.lua"] := rfl

/-- A job in the workspace. -/
def job (arguments : List String) (command : Command)
    (asked : Invocation.ofArguments arguments = .ok ⟨some ".", none, command⟩)
    (unasked : command.IsUnasked) : Job :=
  ⟨.usual, ["w"], [], [], now, arguments, ⟨some ".", none, command⟩, asked, unasked, by decide⟩

/-- A request to insert a line, with whatever is given for the last line. -/
def request (last : Value) : EditRequest where
  file := "main.lua"
  operation := some .insert
  first := some 1
  last := last
  source := .given (.str "b")
  dryRun := false
  acceptFix := false
  showDiff := false
  json := false
  yes := true

/-- Inserts a line. -/
def inserting : Job :=
  job ["edit", "main.lua", "--op", "insert", "--line", "1", "--text", "b", "-y"]
    (.edit (request .null)) rfl rfl

/-- Inserts a line; the last line is given and taken out again. -/
def insertingOddly : Job :=
  job ["edit", "main.lua", "--op", "insert", "--line", "1", "--end=--", "--text", "b", "-y"]
    (.edit (request (.list []))) rfl rfl

/-- Takes the last edit back. -/
def undoing : Job :=
  job ["undo", "main.lua", "-y"] (.undo "main.lua" (.int 1) true) rfl rfl

/-- The edit that is asked for. -/
def edit (last : Value) : Edit := ⟨.insert, 1, last, .str "b"⟩

/-- The call for that edit. -/
def insertion (last : Value) : Call := .apply now "main.lua" (edit last) {}

/-- The call to take it back. -/
def undoCall : Call := .rollback "main.lua" (.int 1)

theorem call?_inserting (disk : Disk) : inserting.call? disk = some (insertion .null) := rfl

theorem call?_insertingOddly (disk : Disk) :
    insertingOddly.call? disk = some (insertion (.list [])) := rfl

theorem call?_undoing (disk : Disk) : undoing.call? disk = some undoCall := rfl

theorem not_refuses_usual (item : Console.Item) : ¬ Command.Host.usual.Refuses item := by
  rintro ⟨shown, refused⟩
  cases refused

/-- A disk without a file for the settings. -/
def IsSilent (disk : Disk) : Prop :=
  (disk.holds ["w"] (.ofPath ["w", Settings.fileName])).toOption = some false

theorem rootOf_eq (command : Command) :
    Command.rootOf ["w"] ⟨some ".", none, command⟩ = ["w"] := by
  change (Route.ofText ".").resolve ["w"] = ["w"]
  decide

theorem starts_job {arguments : List String} {command : Command}
    {asked : Invocation.ofArguments arguments = .ok ⟨some ".", none, command⟩}
    {unasked : command.IsUnasked} {disk : Disk} (silent : IsSilent disk) :
    (job arguments command asked unasked).Starts gate disk where
  given := rfl
  nameable := by
    change (Route.ofText ".").isNameable = true
    decide
  workspace := congrArg Workspace.ofPath (rootOf_eq command)
  settings := by
    have route : Command.settingsRoute ["w"] ⟨some ".", none, command⟩ =
        .ofPath ["w", Settings.fileName] :=
      congrArg (fun root => Route.ofPath (root ++ [Settings.fileName])) (rootOf_eq command)
    refine ⟨[], ?_⟩
    simp only [job, route, Settings.ofDisk, Gate.eq_ok_of_toOption silent, Except.mapError, bind,
      Except.bind]
    rfl
  logs := by
    change Command.Host.isLevel "INFO" = true
    decide

section Usual

variable {job : Job} {disk : Disk} {loaded : Gate} {found : Bool} {call : Call}
  (usual : job.host = .usual) (starts : job.Starts gate disk)
  (loads : ∀ nesting ≥ History.levels, gate.load nesting disk = .ok (loaded, found))
  (called : job.call? disk = some call)

include usual starts loads called

/-- On the usual host a run ends as the plan of its call does. -/
theorem finish_run :
    ((job.run disk).ending, (job.run disk).disk) =
      (Call.plan loaded (loaded.workspace.read disk call.name).toOption call).finish .sound loaded
        disk call := by
  have deep : History.levels ≤ job.host.nesting := by
    rw [usual]
    decide
  have finishes := starts.finish_run made_gate (loads _ deep) called fun item refused =>
    absurd (usual ▸ refused) (not_refuses_usual item)
  rwa [usual] at finishes

theorem run_of_settle {ending : Ending}
    (planned : Call.plan loaded (loaded.workspace.read disk call.name).toOption call =
      .settle ending) :
    (job.run disk).ending = ending ∧ (job.run disk).disk = disk := by
  have finishes := finish_run usual starts loads called
  rw [planned] at finishes
  exact Prod.mk.inj finishes

theorem run_of_write {text : List Char} {history : History} {written after : Disk}
    (planned : Call.plan loaded (loaded.workspace.read disk call.name).toOption call =
      .write text history)
    (wrote : loaded.workspace.write disk call.name text = (written, .ok ()))
    (saved : ({ loaded with history := history } : Gate).save written = (after, .ok ())) :
    (job.run disk).ending = .exit .success ∧ (job.run disk).disk = after := by
  have finishes := finish_run usual starts loads called
  rw [Workspace.write] at wrote
  rw [Gate.save] at saved
  rw [planned, Call.Plan.finish, wrote] at finishes
  simp only [Call.saveLast, saved] at finishes
  exact Prod.mk.inj finishes

end Usual

theorem load_disk (nesting : ℕ) : gate.load nesting disk = .ok (gate, false) := by
  have unsaved : disk.holds [] gate.historyRoute = .ok false := rfl
  simp only [Gate.load, unsaved, Except.mapError, bind, Except.bind]
  rfl

/-- The disk once the line was inserted. -/
def written : Disk := (gate.workspace.write disk "main.lua" "b".toList).1

theorem read_written : (gate.workspace.read written "main.lua").toOption = some "b".toList := by
  decide +kernel

theorem canCommit_edit (last : Value) :
    Gate.CanCommit gate.workspace gate.policy disk "main.lua" (edit last) [] "b".toList
      written where
  readable := rfl
  made := rfl
  valid := by
    have clean : (Analysis.ofText gate.policy.rules "b".toList).errors = [] := by
      rw [Analysis.errors_ofText_eq_nil_iff]
      decide +kernel
    simp only [Report.valid, Report.ofText, clean, Finding.sort, List.mergeSort_nil,
      List.isEmpty_nil]
  wrote := rfl

/-- How to take the line out again. -/
def recipe : Diff.Recipe Value := ⟨[], [(0, .str "b")], [], false⟩

/-- The entry for the edit. -/
def entry (last : Value) : History.Entry := ⟨now, recipe, 1, some (edit last)⟩

/-- The history once the line was inserted. -/
def recorded (last : Value) : History where
  capacity := gate.history.capacity
  entries := [("main.lua", [entry last])]
  heads := [("main.lua", .str "b")]
  fits := List.forall_mem_singleton.2 (History.Capacity.holds_singleton _ _)

theorem record_edit (last : Value) :
    gate.history.record now (gate.workspace.keyAt ["w", "main.lua"]) [] "b".toList
      (some (edit last)) = recorded last := by
  have key : gate.workspace.keyAt ["w", "main.lua"] = "main.lua" := rfl
  have recipe : Diff.Recipe.ofTexts [] "b".toList = ⟨[], [(0, ['b'])], [], false⟩ := by
    rw [Diff.Recipe.ofTexts_of_disjoint (by decide)]
    rfl
  simp only [History.record, History.Entry.ofTexts, recipe, key]
  rfl

theorem plan_insertion (last : Value) :
    Call.plan gate (gate.workspace.read disk "main.lua").toOption (insertion last) =
      .write "b".toList (recorded last) := by
  rw [insertion, Call.plan_of_canCommit (canCommit_edit last) leads_main rfl, record_edit]

/-- The gate once the line was inserted. -/
def edited (last : Value) : Gate := { gate with history := recorded last }

/-- The disk once that gate saved its history. -/
def saved (last : Value) : Disk := ((edited last).save written).1

/-- The history once the edit was taken back. -/
def undone : History where
  capacity := gate.history.capacity
  entries := [("main.lua", [])]
  heads := [("main.lua", .str "")]
  fits := List.forall_mem_singleton.2 History.Capacity.holds_nil

/-- What comes next can be computed, as the stored text is not looked at. -/
theorem computed : ∀ last ∈ [Value.null, .list []],
    ((edited last).save written).2.toOption = some () ∧ IsSilent (saved last) ∧
      (gate.workspace.read (saved last) "main.lua").toOption = some "b".toList ∧
      ((recorded last).previewCount "main.lua" (.int 1) (.str "b")).toOption = some ([], 1) ∧
      (gate.workspace.write (saved last) "main.lua" []).2.toOption = some () ∧
      (({ gate with history := undone } : Gate).save
        (gate.workspace.write (saved last) "main.lua" []).1).2.toOption = some () := by
  unfold IsSilent
  decide +kernel

theorem save_edited {last : Value}
    (saves : ((edited last).save written).2.toOption = some ()) :
    (edited last).save written = (saved last, .ok ()) :=
  Gate.eq_mk_of_toOption saves

/-- A job that inserts the line does so in the session as well. -/
theorem step_insertion {job : Job} {last : Value} (usual : job.host = .usual)
    (starts : job.Starts gate disk) (called : job.call? disk = some (insertion last))
    (saves : ((edited last).save written).2.toOption = some ()) :
    (job.run disk).ending = .exit .success ∧
      (start gate disk).step job = ⟨saved last, ⟨edited last, written⟩⟩ := by
  obtain ⟨ends, kept⟩ := run_of_write usual starts (fun nesting _ => load_disk nesting) called
    (plan_insertion last) (canCommit_edit last).wrote (save_edited saves)
  have served : (insertion last).serve ⟨gate, disk⟩ = (.exit .success, ⟨edited last, written⟩) :=
    Call.serve_of_plan (plan_insertion last) (canCommit_edit last).wrote
  refine ⟨ends, ?_⟩
  simp only [step, start, called, kept, served]

theorem rollback_recorded {last : Value}
    (previewed : ((recorded last).previewCount "main.lua" (.int 1) (.str "b")).toOption =
      some ([], 1)) :
    (recorded last).rollback "main.lua" (.int 1) (.str "b") = .ok ([], undone) := by
  rw [History.rollback, Gate.eq_ok_of_toOption previewed]
  rfl

theorem plan_undoCall {last : Value}
    (previewed : ((recorded last).previewCount "main.lua" (.int 1) (.str "b")).toOption =
      some ([], 1)) :
    Call.plan (edited last) (some "b".toList) undoCall = .write [] undone := by
  have nameable : (Route.ofText "main.lua").isNameable = true := rfl
  have key : gate.workspace.key "main.lua" = .ok "main.lua" := rfl
  have same : ((recorded last).head? "main.lua").any (!Gate.isHead "b".toList ·) = false := rfl
  have text : String.ofList "b".toList = "b" := rfl
  simp only [Call.plan, undoCall, Call.planFor, Call.undoPlan, edited, nameable, key, same, text,
    rollback_recorded previewed, if_true, Bool.false_eq_true, if_false]

/-- Where nothing is recorded, nothing can be taken back. -/
theorem plan_undoCall_unrecorded (text? : Option (List Char)) :
    Call.plan gate text? undoCall = .settle (.exit .invalid) := by
  cases text? <;> rfl

theorem elsewhere {call : Call} (isMain : call.name = "main.lua") :
    ∀ path, gate.workspace.Leads call.name path → path ≠ gate.historyPath := by
  intro path leads
  rw [isMain] at leads
  obtain rfl : ["w", "main.lua"] = path := Except.ok.inj (leads_main.symm.trans leads)
  decide

theorem step_inserting :
    (inserting.run disk).ending = .exit .success ∧
      (start gate disk).step inserting = ⟨saved .null, ⟨edited .null, written⟩⟩ :=
  step_insertion rfl (starts_job rfl) (call?_inserting disk) (computed _ (by simp)).1

theorem not_failsToWrite {loaded : Gate} {disk after : Disk} {call : Call} {text : List Char}
    {history : History}
    (planned : Call.plan loaded (loaded.workspace.read disk call.name).toOption call =
      .write text history)
    (wrote : loaded.workspace.write disk call.name text = (after, .ok ())) :
    ¬ call.FailsToWrite .sound loaded disk := by
  rw [Call.failsToWrite_iff_of_plan planned, Workspace.writeOn_sound, wrote]
  rintro ⟨other, cause, failed⟩
  cases failed

theorem isFair_inserting : inserting.IsFair gate disk where
  starts := starts_job rfl
  nesting := by
    change History.levels ≤ 990
    decide
  last := by
    rintro request ⟨⟩ -
    nofun
  elsewhere := by
    intro call called
    obtain rfl := Option.some.inj ((call?_inserting disk).symm.trans called)
    exact elsewhere rfl
  writes := by
    intro call called loaded found loads
    obtain rfl := Option.some.inj ((call?_inserting disk).symm.trans called)
    obtain ⟨rfl, -⟩ := Prod.mk.inj (Except.ok.inj ((load_disk _).symm.trans loads))
    exact not_failsToWrite (plan_insertion .null) (canCommit_edit .null).wrote
  saves := by
    intro cause
    rw [step_inserting.1]
    nofun
  shows := by
    intro item
    rw [step_inserting.1]
    nofun

theorem isStorable_recorded : (recorded .null).IsStorable := by
  rw [← record_edit]
  refine (History.isStorable_empty rfl).record (by decide) _ _ _ ?_
  rintro given ⟨⟩
  exact ⟨Or.inl rfl, .str 1 _⟩

theorem load_saved :
    ∀ nesting ≥ History.levels, gate.load nesting (saved .null) = .ok (edited .null, true) :=
  fun _ deep =>
    Gate.load_of_save deep (save_edited (computed _ (by simp)).1) isStorable_recorded rfl rfl

theorem isFair_undoing : undoing.IsFair gate (saved .null) := by
  obtain ⟨-, silent, readable, previewed, writes, saves⟩ := computed .null (by simp)
  have planned := plan_undoCall previewed
  rw [← readable] at planned
  have wrote : (edited .null).workspace.write (saved .null) "main.lua" [] =
      ((gate.workspace.write (saved .null) "main.lua" []).1, .ok ()) :=
    Gate.eq_mk_of_toOption writes
  have stored : ({ edited .null with history := undone } : Gate).save
      (gate.workspace.write (saved .null) "main.lua" []).1 = (_, .ok ()) :=
    Gate.eq_mk_of_toOption saves
  have starts : undoing.Starts gate (saved .null) := starts_job silent
  have ends := (run_of_write rfl starts load_saved (call?_undoing _) planned wrote stored).1
  have deep : History.levels ≤ undoing.host.nesting := by
    change History.levels ≤ 990
    decide
  refine ⟨starts, deep, ?_, ?_, ?_, ?_, ?_⟩
  · intro request edits
    cases edits
  · intro call called
    obtain rfl := Option.some.inj ((call?_undoing _).symm.trans called)
    exact elsewhere rfl
  · intro call called loaded found loads
    obtain rfl := Option.some.inj ((call?_undoing _).symm.trans called)
    obtain ⟨rfl, -⟩ := Prod.mk.inj (Except.ok.inj ((load_saved _ deep).symm.trans loads))
    exact not_failsToWrite planned wrote
  · intro cause
    rw [ends]
    nofun
  · intro item
    rw [ends]
    nofun

theorem isTree_disk : disk.IsTree := by
  intro path stands
  cases path with
  | nil => rfl
  | cons first rest =>
      obtain ⟨item, found⟩ := Option.ne_none_iff_exists'.1 stands
      have among := Assoc.mem_of_find? found
      simp only [disk, List.mem_cons, Prod.mk.injEq, List.not_mem_nil, or_false] at among
      rcases among with ⟨same, -⟩ | ⟨same, -⟩ <;> rw [same] <;> rfl

/-- The history with the odd insertion is plain data, even though it is not read back. -/
theorem isPlain_recorded : (recorded (.list [])).toValue.IsPlain History.levels := by
  have few : ∀ number : ℤ, number.natAbs < 10 → Text.isWritable number = true := by
    intro number small
    by_contra large
    have least : 10 ≤ 10 ^ Text.maxDigits := Nat.le_self_pow (by decide) 10
    exact absurd (least.trans ((History.not_isWritable_iff number).1 large)) (not_le.2 small)
  have plainEdit : (edit (.list [])).toValue.IsPlain 2 := by
    refine .object (by decide) ?_
    simp only [List.forall_mem_cons]
    exact ⟨.str 1 _, .int 1 (few 1 (by decide)), .list (List.forall_mem_nil _), .str 1 _,
      List.forall_mem_nil _⟩
  have plainRecipe : recipe.toValue.IsPlain 2 := by
    refine .object (by decide) ?_
    simp only [List.forall_mem_cons]
    refine ⟨.object .nil (List.forall_mem_nil _), .object (by decide) ?_,
      .object .nil (List.forall_mem_nil _), .bool 1 _, List.forall_mem_nil _⟩
    simp only [recipe, List.map_cons, List.map_nil, List.forall_mem_cons]
    exact ⟨.str 0 _, List.forall_mem_nil _⟩
  have plainEntry : (entry (.list [])).toValue.IsPlain 3 := by
    refine .object (by decide) ?_
    simp only [List.forall_mem_cons]
    exact ⟨.float 2 (by decide), plainRecipe, .int 2 (few 1 (by decide)), plainEdit,
      List.forall_mem_nil _⟩
  have plainFile :
      ((recorded (.list [])).fileValue ("main.lua", [entry (.list [])])).2.IsPlain 5 := by
    refine .object (by decide) ?_
    simp only [List.forall_mem_cons]
    refine ⟨.str 4 _, .list ?_, List.forall_mem_nil _⟩
    simp only [List.map_cons, List.map_nil, List.forall_mem_cons]
    exact ⟨plainEntry, List.forall_mem_nil _⟩
  rw [History.toValue_eq]
  refine .object (by decide) ?_
  simp only [List.forall_mem_cons]
  refine ⟨.int 6 (few 5 (by decide)), .object (by decide) ?_, List.forall_mem_nil _⟩
  simp only [recorded, List.map_cons, List.map_nil, List.forall_mem_cons]
  exact ⟨plainFile, List.forall_mem_nil _⟩

theorem load_savedOddly :
    ∀ nesting ≥ History.levels, gate.load nesting (saved (.list [])) = .ok (gate, false) := by
  intro nesting deep
  have malformed : gate.history.restoreValue (edited (.list [])).history.toValue =
      .error (.edit .linesNotIntegers) := rfl
  have route : gate.historyRoute = (edited (.list [])).historyRoute := rfl
  rw [Gate.load_of_save_plain (save_edited (computed (.list []) (by simp)).1) route
    (isPlain_recorded.mono deep), malformed]
  rfl

end Tandem.Sample

namespace Tandem

/-- On a disk without a stored history, runs of the program and a gate that goes on stay in step.
After any jobs, the next one ends as its call does, the files are the same, and the history that is
loaded from the disk is the one of the gate. -/
theorem runs_agree_with_session {gate : Gate}
    (made : Gate.ofSettings? gate.workspace gate.settings = some gate) {disk : Disk}
    (tree : disk.IsTree) (missing : disk.item? gate.historyPath = none)
    (looks : disk.holds [] gate.historyRoute = .ok false) {jobs : List Job} {job : Job}
    (fair : (start gate disk).IsFair gate (jobs ++ [job])) :
    let before := (start gate disk).run jobs
    let after := before.step job
    (∀ call, job.call? before.disk = some call →
        (job.run before.disk).ending = (call.serve before.session).1) ∧
      (job.call? before.disk = none → after = before) ∧
      (∀ path ≠ gate.historyPath, ∀ octets, after.disk.item? path = some (.file octets) ↔
        after.session.disk.item? path = some (.file octets)) ∧
      ∃ found, ∀ nesting ≥ History.levels,
        gate.load nesting after.disk = .ok (after.session.gate, found) := by
  intro before after
  obtain ⟨earlier, last, -⟩ := isFair_append.1 fair
  have inStep : before.InStep gate := (inStep_start made tree missing looks).run made earlier
  have still : after.InStep gate := inStep.step made last
  exact ⟨fun call called => (inStep.step_of_call made last called).1,
    inStep.step_eq_self made last,
    fun path different octets => still.mirrors.item?_file_iff different, still.loads⟩

/-- A line is inserted and taken out again. -/
theorem runs_agree_with_session_undone :
    let before := (start Sample.gate Sample.disk).run [Sample.inserting]
    let after := before.step Sample.undoing
    (start Sample.gate Sample.disk).IsFair Sample.gate ([Sample.inserting] ++ [Sample.undoing]) ∧
      (∃ call, Sample.undoing.call? before.disk = some call ∧
        (Sample.undoing.run before.disk).ending = (call.serve before.session).1) ∧
      ∃ found, ∀ nesting ≥ History.levels,
        Sample.gate.load nesting after.disk = .ok (after.session.gate, found) := by
  intro before after
  have fair : (start Sample.gate Sample.disk).IsFair Sample.gate
      ([Sample.inserting] ++ [Sample.undoing]) := by
    simp only [List.cons_append, List.nil_append, IsFair, Sample.step_inserting.2, and_true]
    exact ⟨Sample.isFair_inserting, Sample.isFair_undoing⟩
  obtain ⟨ends, -, -, loads⟩ :=
    runs_agree_with_session Sample.made_gate Sample.isTree_disk (by decide) rfl fair
  exact ⟨fair, ⟨_, rfl, ends _ rfl⟩, loads⟩

/-- **An insertion whose last line was taken out.** It is carried out and stored, but the next run
cannot read the history back and finds nothing to undo, where the session undoes the edit. -/
theorem undo_fails_after_odd_insertion :
    let before := (start Sample.gate Sample.disk).run [Sample.insertingOddly]
    (Sample.insertingOddly.run Sample.disk).ending = .exit .success ∧
      (Sample.undoing.run before.disk).ending = .exit .invalid ∧
      ∃ call, Sample.undoing.call? before.disk = some call ∧
        (call.serve before.session).1 = .exit .success := by
  obtain ⟨saves, silent, -, previewed, -, -⟩ := Sample.computed (.list []) (by simp)
  obtain ⟨ends, moved⟩ := Sample.step_insertion rfl (Sample.starts_job rfl)
    (Sample.call?_insertingOddly Sample.disk) saves
  have ran : (start Sample.gate Sample.disk).run [Sample.insertingOddly] =
      ⟨Sample.saved (.list []), ⟨Sample.edited (.list []), Sample.written⟩⟩ := moved
  have planned := Sample.plan_undoCall previewed
  have readable : ((Sample.edited (.list [])).workspace.read Sample.written
      Sample.undoCall.name).toOption = some "b".toList := Sample.read_written
  rw [← readable] at planned
  have undoes := Call.serve_of_plan planned (Gate.eq_mk_of_toOption rfl)
  have starts : Sample.undoing.Starts Sample.gate (Sample.saved (.list [])) :=
    Sample.starts_job silent
  obtain ⟨refused, -⟩ := Sample.run_of_settle rfl starts Sample.load_savedOddly
    (Sample.call?_undoing _) (Sample.plan_undoCall_unrecorded _)
  simp only [ran]
  exact ⟨ends, refused, Sample.undoCall, Sample.call?_undoing _, congrArg Prod.fst undoes⟩

end Tandem

end EditGate

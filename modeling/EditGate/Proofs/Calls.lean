import EditGate.Command.Run
import EditGate.Proofs.Json
import EditGate.Proofs.Sessions
import Mathlib

/-!
# Commands as calls

A command to edit a file or to take edits back makes at most one call to a gate that changes
anything. Such a call looks at the disk only to read its file; from the text it follows what is to
be written and recorded, or how the call ends without that. The command ends as the call does,
unless the history cannot be saved or something cannot be shown.
-/

namespace EditGate.Command

/-! ## What arguments can ask for -/

namespace Draft

/-- Whether every flag has a value that is meant by some text. -/
def IsMeant (draft : Draft) : Prop :=
  ∀ entry ∈ draft.values, ∃ text, entry.2 = meaning entry.1 text

theorem isMeant_empty : IsMeant {} :=
  fun _ among => absurd among List.not_mem_nil

theorem IsMeant.add {draft next : Draft} (meant : draft.IsMeant) {step : Step}
    (added : draft.add step = .ok next) : next.IsMeant := by
  cases step with
  | extra =>
      cases added
      exact meant
  | positional text =>
      cases added
      exact meant
  | flag name value =>
      simp only [Draft.add] at added
      split at added
      · cases added
      · split at added
        · cases added
        · split at added
          · cases added
            exact meant
          · cases added
            intro entry among
            rcases Assoc.mem_of_mem_put among with rfl | old
            · exact ⟨_, rfl⟩
            · exact meant entry old

theorem IsMeant.addAll {draft next : Draft} (meant : draft.IsMeant) {steps : List Step}
    (added : draft.addAll steps = .ok next) : next.IsMeant := by
  rw [Draft.addAll] at added
  induction steps generalizing draft with
  | nil =>
      cases added
      exact meant
  | cons step rest ih =>
      rw [List.foldlM_cons] at added
      cases first : draft.add step with
      | error code =>
          rw [first] at added
          cases added
      | ok middle =>
          rw [first] at added
          exact ih (meant.add first) added

theorem IsMeant.valueD_eq {draft : Draft} (meant : draft.IsMeant) (name : String) :
    draft.valueD name = .null ∨ ∃ text, draft.valueD name = meaning name text := by
  rw [valueD, value?]
  cases found : Assoc.find? name draft.values with
  | none => exact Or.inl rfl
  | some value => exact Or.inr (meant (name, value) (Assoc.mem_of_find? found))

theorem meaning_end (text : String) :
    meaning "--end" text = .null ∨ (∃ line, meaning "--end" text = .int line) ∨
      meaning "--end" text = .list [] := by
  rw [meaning]
  split
  · exact Or.inr (Or.inr rfl)
  · cases Text.readInt? text.toList with
    | none => exact Or.inl rfl
    | some line => exact Or.inr (Or.inl ⟨line, rfl⟩)

theorem isPlain_meaning_text (text : String) : (meaning "--text" text).IsPlain 1 := by
  rw [meaning]
  · split
    · exact .list (List.forall_mem_nil _)
    · exact .str 1 text
  all_goals decide

/-- The new text that arguments give is a text, nothing, or an empty list. -/
theorem IsMeant.isPlain_of_source {draft : Draft} (meant : draft.IsMeant) {payload : Value}
    (given : draft.source = .given payload) : payload.IsPlain 1 := by
  have plain : (draft.valueD "--text").IsPlain 1 := by
    rcases meant.valueD_eq "--text" with nothing | ⟨text, value⟩
    · rw [nothing]
      exact .null 1
    · rw [value]
      exact isPlain_meaning_text text
  rw [source] at given
  split at given
  · cases given
  · split at given
    · cases given
      exact plain
    · cases given
  · cases given
    exact plain

end Draft

/-- An edit that arguments can ask for: its last line is a number, missing, or was taken out, and
its new text is a text or other simple data. -/
structure IsAskable (request : EditRequest) : Prop where
  last : request.last = .null ∨ (∃ line, request.last = .int line) ∨ request.last = .list []
  payload : ∀ payload, request.source = .given payload → payload.IsPlain 1

theorem Draft.IsMeant.isAskable {draft : Draft} (meant : draft.IsMeant) {name : String}
    {request : EditRequest} (made : draft.command? name = some (.edit request)) :
    IsAskable request := by
  simp only [command?, Option.bind_eq_bind] at made
  cases target : draft.target with
  | none => simp [target] at made
  | some file =>
      simp only [target, Option.bind_some] at made
      split at made
      · cases made
      · cases given : draft.value? "--op" with
        | none => simp [given] at made
        | some operation =>
            cases line : draft.first? with
            | none => simp [given, line] at made
            | some first =>
                simp only [given, line, Option.bind_some, Option.some.injEq, edit.injEq] at made
                subst made
                refine ⟨?_, fun payload => meant.isPlain_of_source⟩
                rcases meant.valueD_eq "--end" with nothing | ⟨text, value⟩
                · exact Or.inl nothing
                · rw [value]
                  exact meaning_end text
      · cases made
      · cases made
      · cases made

theorem isAskable_of_ofArguments {name : String} {arguments : List String} {request : EditRequest}
    (asked : ofArguments name arguments = .ok (.edit request)) : IsAskable request := by
  rw [ofArguments] at asked
  cases known : commandFlags? name with
  | none =>
      rw [known] at asked
      cases asked
  | some flags =>
      cases classified : classifyAll? flags arguments with
      | none =>
          simp only [known, classified] at asked
          cases asked
      | some words =>
          cases added : Draft.addAll {} (read flags true words).steps with
          | error code =>
              simp only [known, classified, added, bind, Except.bind] at asked
              cases asked
          | ok draft =>
              simp only [known, classified, added, bind, Except.bind] at asked
              split at asked
              next command made =>
                split at asked
                · cases asked
                · cases asked
                  exact (Draft.isMeant_empty.addAll added).isAskable made
              · cases asked

/-- Whatever edit the arguments of the program ask for is one that arguments can ask for. -/
theorem isAskable_of_invocation {arguments : List String} {invocation : Invocation}
    (asked : Invocation.ofArguments arguments = .ok invocation) {request : EditRequest}
    (edits : invocation.command = .edit request) : IsAskable request := by
  rw [Invocation.ofArguments] at asked
  cases known : classifyAll? headingFlags arguments with
  | none =>
      rw [known] at asked
      cases asked
  | some words =>
      cases added : Draft.addAll {} (readHeading headingFlags (arguments.zip words)).steps with
      | error code =>
          simp only [known, added, bind, Except.bind] at asked
          cases asked
      | ok draft =>
          simp only [known, added, bind, Except.bind] at asked
          split at asked
          next name rest heading =>
            cases command : ofArguments name rest with
            | error code =>
                simp only [command] at asked
                cases asked
            | ok given =>
                simp only [command] at asked
                split at asked
                · cases asked
                · cases asked
                  exact isAskable_of_ofArguments (command.trans (congrArg Except.ok edits))
          · cases asked

end EditGate.Command

namespace EditGate

open Command (Ending ExitCode Situation)

/-! ## Calls -/

/-- A call that may change a gate and its disk. -/
inductive Call where
  | apply (now : Binary64) (name : String) (edit : Edit) (mode : Gate.Mode)
  | rollback (name : String) (steps : Value)

/-- The call that a command makes, unless it ends before. -/
def Command.call? (situation : Situation) : Command → Option Call
  | .edit request =>
      match newText situation request.source, request.operation, request.first with
      | .ok payload, some operation, some first =>
          some (.apply situation.now request.file ⟨operation, first, request.last, payload⟩
            ⟨request.acceptFix, request.dryRun⟩)
      | _, _, _ => none
  | .undo file steps _ => some (.rollback file steps)
  | .check _ _ _ _ | .history _ => none

namespace Call

/-- The name of the file that a call is about. -/
def name : Call → String
  | apply _ name _ _ | rollback name _ => name

/-- The exit code for the outcome of an edit. -/
def applyCode : Except Gate.Failure Gate.Application → ExitCode
  | .error _ => .usage
  | .ok application =>
      match application.disposition with
      | .rejected => .invalid
      | .dryRun _ _ | .committed _ _ => .success
      | .unwritten _ _ _ => .usage

/-- The exit code for the outcome of taking edits back. -/
def undoCode : Except Gate.Failure Gate.Undone → ExitCode
  | .error _ => .invalid
  | .ok _ => .success

/-- Serves a call in a session that goes on. Beside what becomes of the session stands how a
program that makes the call is to end. -/
def serve (session : Gate.Session) : Call → Ending × Gate.Session
  | apply now name edit mode =>
      match session.gate.apply session.disk now name edit mode with
      | .ok (gate, disk, outcome) => (.exit (applyCode outcome), ⟨gate, disk⟩)
      | .error fault => (.fault (.gate fault), session)
  | rollback name steps =>
      match session.gate.rollback session.disk name steps with
      | .ok (gate, disk, outcome) => (.exit (undoCode outcome), ⟨gate, disk⟩)
      | .error fault => (.fault (.gate fault), session)

/-- Whether a call comes to write its file to a device and cannot. -/
def FailsToWrite (device : Disk.Device) (gate : Gate) (disk : Disk) : Call → Prop
  | apply now name edit mode => ∃ next after application,
      gate.applyOn device disk now name edit mode = .ok (next, after, .ok application) ∧
        application.writeError?.isSome = true
  | rollback name steps => ∃ next after cause,
      gate.rollbackOn device disk name steps = .ok (next, after, .error (.unwritable cause))

/-! ## Plans -/

/-- What is to be done for a call, once its file was read. -/
inductive Plan where
  /-- Nothing is written, and this is how it ends. -/
  | settle (ending : Ending)
  /-- A text is written, and then this is the history. -/
  | write (text : List Char) (history : History)

/-- The plan for an edit of a text. -/
def editPlan (gate : Gate) (now : Binary64) (key : String) (edit : Edit) (mode : Gate.Mode)
    (text : List Char) : Plan :=
  match Report.ofEdit gate.policy text edit with
  | .error cause =>
      .settle (if Gate.isKindError cause then .fault (.gate (.edit cause)) else .exit .usage)
  | .ok report =>
      match Gate.accepted report mode.acceptFix with
      | none => .settle (.exit .invalid)
      | some (new, _) =>
          if mode.dryRun then .settle (.exit .success)
          else .write new (gate.history.record now key text new (some edit))

/-- The plan for taking edits of a text back. -/
def undoPlan (gate : Gate) (key : String) (steps : Value) (text : List Char) : Plan :=
  if (gate.history.head? key).any (!Gate.isHead text ·) then .settle (.exit .invalid)
  else match gate.history.rollback key steps (.str (String.ofList text)) with
    | .error .stepsTooFew | .error (.insufficient _ _ _) => .settle (.exit .invalid)
    | .error cause => .settle (.fault (.gate (.history cause)))
    | .ok (restored, history) => .write restored history

/-- The exit code if the file cannot be read or written. -/
def failureCode : Call → ExitCode
  | apply _ _ _ _ => .usage
  | rollback _ _ => .invalid

/-- The plan for a call about a file, given what to do with the text if that can be read. -/
def planFor (gate : Gate) (name : String) (text? : Option (List Char)) (failure : ExitCode)
    (next : String → List Char → Plan) : Plan :=
  if (Route.ofText name).isNameable then
    match gate.workspace.key name, text? with
    | .ok key, some text => next key text
    | _, _ => .settle (.exit failure)
  else .settle (.fault (.gate .unnameable))

/-- The plan for a call, given the text of its file if that can be read. -/
def plan (gate : Gate) (text? : Option (List Char)) (call : Call) : Plan :=
  match call with
  | apply now name edit mode =>
      planFor gate name text? call.failureCode fun key => editPlan gate now key edit mode
  | rollback name steps =>
      planFor gate name text? call.failureCode fun key => undoPlan gate key steps

/-- Carries a plan out. -/
def Plan.carryOut (session : Gate.Session) (call : Call) : Plan → Ending × Gate.Session
  | settle ending => (ending, session)
  | write text history =>
      match session.gate.workspace.write session.disk call.name text with
      | (disk, .ok ()) => (.exit .success, ⟨{ session.gate with history := history }, disk⟩)
      | (disk, .error _) => (.exit call.failureCode, ⟨session.gate, disk⟩)

theorem serve_apply (session : Gate.Session) (now : Binary64) (name : String) (edit : Edit)
    (mode : Gate.Mode) :
    serve session (apply now name edit mode) =
      (plan session.gate (session.gate.workspace.read session.disk name).toOption
        (apply now name edit mode)).carryOut session (apply now name edit mode) := by
  simp only [serve, Gate.apply, Gate.applyOn, Gate.named, plan, planFor, Gate.trial, Gate.text]
  cases (Route.ofText name).isNameable with
  | false => rfl
  | true =>
  cases session.gate.workspace.key name with
  | error cause => rfl
  | ok key =>
  cases session.gate.workspace.read session.disk name with
  | error cause => rfl
  | ok text =>
  simp only [Except.mapError, bind, Except.bind, Except.toOption, editPlan, if_true]
  cases Report.ofEdit session.gate.policy text edit with
  | error cause =>
      simp only
      cases Gate.isKindError cause <;> rfl
  | ok report =>
  simp only
  cases Gate.accepted report mode.acceptFix with
  | none => rfl
  | some taken =>
  cases mode.dryRun with
  | true => rfl
  | false =>
  simp only [Gate.commit, Workspace.writeOn_sound, Plan.carryOut, Call.name, Bool.false_eq_true,
    if_false]
  rcases session.gate.workspace.write session.disk name taken.1 with ⟨after, cause | ⟨⟩⟩
  · rfl
  · rfl

theorem serve_rollback (session : Gate.Session) (name : String) (steps : Value) :
    serve session (rollback name steps) =
      (plan session.gate (session.gate.workspace.read session.disk name).toOption
        (rollback name steps)).carryOut session (rollback name steps) := by
  simp only [serve, Gate.rollback, Gate.rollbackOn, Gate.named, plan, planFor,
    Workspace.writeOn_sound]
  cases (Route.ofText name).isNameable with
  | false => rfl
  | true =>
  cases session.gate.workspace.key name with
  | error cause => rfl
  | ok key =>
  cases session.gate.workspace.read session.disk name with
  | error cause => rfl
  | ok text =>
  simp only [Except.toOption, undoPlan, if_true]
  cases (session.gate.history.head? key).any (!Gate.isHead text ·) with
  | true => rfl
  | false =>
  simp only [Bool.false_eq_true, if_false]
  cases session.gate.history.rollback key steps (.str (String.ofList text)) with
  | error cause => cases cause <;> rfl
  | ok taken =>
  simp only [Plan.carryOut, Call.name]
  rcases session.gate.workspace.write session.disk name taken.1 with ⟨after, cause | ⟨⟩⟩
  · rfl
  · rfl

/-- A call is served by carrying out the plan for it, which depends on the disk only through the
text of the file. -/
theorem serve_eq_carryOut (session : Gate.Session) (call : Call) :
    serve session call =
      (plan session.gate (session.gate.workspace.read session.disk call.name).toOption
        call).carryOut session call := by
  cases call with
  | apply now name edit mode => exact serve_apply session now name edit mode
  | rollback name steps => exact serve_rollback session name steps

theorem serve_of_plan {gate : Gate} {disk after : Disk} {call : Call} {text : List Char}
    {history : History}
    (planned : plan gate (gate.workspace.read disk call.name).toOption call = .write text history)
    (wrote : gate.workspace.write disk call.name text = (after, .ok ())) :
    serve ⟨gate, disk⟩ call = (.exit .success, ⟨{ gate with history := history }, after⟩) := by
  simp only [serve_eq_carryOut, planned, Plan.carryOut, wrote]

/-- An edit that can be committed is planned so. -/
theorem plan_of_canCommit {gate : Gate} {disk next : Disk} {name : String} {path : Path}
    {edit : Edit} {before after : List Char} {mode : Gate.Mode}
    (possible : Gate.CanCommit gate.workspace gate.policy disk name edit before after next)
    (leads : gate.workspace.Leads name path) (wet : mode.dryRun = false) (now : Binary64) :
    plan gate (gate.workspace.read disk name).toOption (apply now name edit mode) =
      .write after
        (gate.history.record now (gate.workspace.keyAt path) before after (some edit)) := by
  have judged : Report.ofEdit gate.policy before edit = .ok (Report.ofText gate.policy after) := by
    rw [Report.ofEdit, possible.made]
    rfl
  have taken : Gate.accepted (Report.ofText gate.policy after) mode.acceptFix =
      some (after, false) := by
    rw [Gate.accepted, if_pos possible.valid]
    rfl
  simp only [plan, planFor, leads.isNameable, leads.key_eq, possible.readable, Except.toOption,
    editPlan, judged, taken, wet, if_true, Bool.false_eq_true, if_false]

/-- What an edit does that comes to write its file. -/
theorem applyOn_of_plan {gate : Gate} {disk : Disk} {now : Binary64} {name : String} {edit : Edit}
    {mode : Gate.Mode} {text : List Char} {history : History}
    (planned : plan gate (gate.workspace.read disk name).toOption (apply now name edit mode) =
      .write text history) (device : Disk.Device) :
    ∃ key trial repaired, gate.applyOn device disk now name edit mode =
      match gate.workspace.writeOn device disk name text with
      | (after, .error cause) =>
          .ok (gate, after, .ok ⟨name, key, trial, .unwritten text repaired cause⟩)
      | (after, .ok ()) =>
          .ok ({ gate with history := history }, after,
            .ok ⟨name, key, trial, .committed text repaired⟩) := by
  simp only [plan, planFor] at planned
  simp only [Gate.applyOn, Gate.named, Gate.trial, Gate.text]
  cases nameable : (Route.ofText name).isNameable with
  | false => simp [nameable] at planned
  | true =>
  cases keyed : gate.workspace.key name with
  | error refusal => simp [nameable, keyed] at planned
  | ok key =>
  cases readable : gate.workspace.read disk name with
  | error failure => simp [nameable, keyed, readable, Except.toOption] at planned
  | ok current =>
  simp only [nameable, keyed, readable, Except.toOption, if_true, editPlan] at planned
  simp only [Except.mapError, bind, Except.bind, if_true]
  cases judged : Report.ofEdit gate.policy current edit with
  | error problem => simp [judged] at planned
  | ok report =>
  simp only [judged] at planned ⊢
  cases accepted : Gate.accepted report mode.acceptFix with
  | none => simp [accepted] at planned
  | some taken =>
  cases dry : mode.dryRun with
  | true => simp [accepted, dry] at planned
  | false =>
  simp only [accepted, dry, Bool.false_eq_true, if_false, Plan.write.injEq] at planned ⊢
  obtain ⟨rfl, rfl⟩ := planned
  refine ⟨key, ⟨current, report⟩, taken.2, ?_⟩
  simp only [Gate.commit]
  rcases gate.workspace.writeOn device disk name taken.1 with ⟨after, cause | ⟨⟩⟩ <;> rfl

/-- What taking edits back does that comes to write its file. -/
theorem rollbackOn_of_plan {gate : Gate} {disk : Disk} {name : String} {steps : Value}
    {text : List Char} {history : History}
    (planned : plan gate (gate.workspace.read disk name).toOption (rollback name steps) =
      .write text history) (device : Disk.Device) :
    ∃ remaining, gate.rollbackOn device disk name steps =
      match gate.workspace.writeOn device disk name text with
      | (after, .error cause) => .ok (gate, after, .error (.unwritable cause))
      | (after, .ok ()) =>
          .ok ({ gate with history := history }, after, .ok ⟨name, steps, text, remaining⟩) := by
  simp only [plan, planFor] at planned
  simp only [Gate.rollbackOn, Gate.named]
  cases nameable : (Route.ofText name).isNameable with
  | false => simp [nameable] at planned
  | true =>
  cases keyed : gate.workspace.key name with
  | error refusal => simp [nameable, keyed] at planned
  | ok key =>
  cases readable : gate.workspace.read disk name with
  | error failure => simp [nameable, keyed, readable, Except.toOption] at planned
  | ok current =>
  simp only [nameable, keyed, readable, Except.toOption, if_true, undoPlan] at planned ⊢
  cases changed : (gate.history.head? key).any (!Gate.isHead current ·) with
  | true => simp [changed] at planned
  | false =>
  simp only [changed, Bool.false_eq_true, if_false] at planned ⊢
  cases undone : gate.history.rollback key steps (.str (String.ofList current)) with
  | error problem => cases problem <;> simp [undone] at planned
  | ok taken =>
  simp only [undone, Plan.write.injEq] at planned ⊢
  obtain ⟨rfl, rfl⟩ := planned
  exact ⟨_, rfl⟩

/-- A call that comes to write its file and cannot says so. -/
theorem failsToWrite_iff_of_plan {gate : Gate} {disk : Disk} {call : Call} {text : List Char}
    {history : History} {device : Disk.Device}
    (planned : plan gate (gate.workspace.read disk call.name).toOption call = .write text history) :
    call.FailsToWrite device gate disk ↔ ∃ after cause,
      gate.workspace.writeOn device disk call.name text = (after, .error cause) := by
  cases call with
  | apply now name edit mode =>
      rw [Call.name] at planned ⊢
      obtain ⟨key, trial, repaired, applied⟩ := applyOn_of_plan planned device
      simp only [FailsToWrite, applied]
      rcases gate.workspace.writeOn device disk name text with ⟨after, cause | ⟨⟩⟩ <;>
        simp [Gate.Application.writeError?]
  | rollback name steps =>
      rw [Call.name] at planned ⊢
      obtain ⟨remaining, undone⟩ := rollbackOn_of_plan planned device
      simp only [FailsToWrite, undone]
      rcases gate.workspace.writeOn device disk name text with ⟨after, cause | ⟨⟩⟩ <;> simp

/-- A call that does not fail to write carries its plan out. -/
theorem exists_writeOn_of_plan {gate : Gate} {disk : Disk} {call : Call} {text : List Char}
    {history : History} {device : Disk.Device}
    (planned : plan gate (gate.workspace.read disk call.name).toOption call = .write text history)
    (writes : ¬ call.FailsToWrite device gate disk) :
    ∃ after, gate.workspace.writeOn device disk call.name text = (after, .ok ()) := by
  rcases wrote : gate.workspace.writeOn device disk call.name text with ⟨after, cause | ⟨⟩⟩
  · exact absurd ((failsToWrite_iff_of_plan planned).2 ⟨after, cause, wrote⟩) writes
  · exact ⟨after, rfl⟩

/-! ## Commands -/

/-- How a run ends that saves the history last, and what it leaves. -/
def saveLast (device : Disk.Device) (gate : Gate) (disk : Disk) : Ending × Disk :=
  match gate.saveOn device disk with
  | (after, .error cause) => (.fault (.save cause), after)
  | (after, .ok ()) => (.exit .success, after)

/-- How a run ends once the plan of its call is made, and what it leaves. -/
def Plan.finish (device : Disk.Device) (gate : Gate) (disk : Disk) (call : Call) :
    Plan → Ending × Disk
  | settle ending => (ending, disk)
  | write text history =>
      match gate.workspace.writeOn device disk call.name text with
      | (after, .error _) => (.exit call.failureCode, after)
      | (written, .ok ()) => saveLast device { gate with history := history } written

end Call

namespace Command

/-- There is something after which the console cannot show an item. -/
def Host.Refuses (host : Host) (item : Console.Item) : Prop :=
  ∃ shown, host.shows shown item = false

/-- What comes of a run that is about to reach a result. It reaches the result, or it breaks off
because something cannot be shown: before anything is done, or once all is done and only to be
told. -/
inductive Follows (host : Host) (before : Disk) (result : Ending × Disk) (outcome : Outcome) : Prop
  | reached : outcome.ending = result.1 → outcome.disk = result.2 →
      Follows host before result outcome
  | cutShort {item : Console.Item} : host.Refuses item → outcome.ending = .fault (.unshown item) →
      outcome.disk = before → Follows host before result outcome
  | untold {item : Console.Item} {code : ExitCode} : host.Refuses item → result.1 = .exit code →
      outcome.ending = .fault (.unshown item) → outcome.disk = result.2 →
      Follows host before result outcome

theorem follows_stop (situation : Situation) (before : Disk) (cause : Fault) :
    Follows situation.host before (.fault cause, situation.disk) (stop situation cause) :=
  .reached rfl rfl

theorem follows_say (situation : Situation) (before : Disk) (code : ExitCode) (text : String) :
    Follows situation.host before (.exit code, situation.disk) (say situation code text) := by
  simp only [say, showing]
  split
  next => exact .reached rfl rfl
  next refused => exact .untold ⟨_, Bool.not_eq_true _ ▸ refused⟩ rfl rfl rfl

/-- What is shown on the way only adds that a run may break off there. -/
theorem follows_showing (situation : Situation) {result : Ending × Disk}
    {items : List Console.Item} {next : Situation → Outcome}
    (follows : ∀ shown, Follows situation.host situation.disk result
      (next { situation with shown := shown })) :
    Follows situation.host situation.disk result (showing situation next items) := by
  induction items generalizing situation with
  | nil => exact follows situation.shown
  | cons item rest ih =>
      rw [showing]
      split
      next => exact ih { situation with shown := item :: situation.shown } follows
      next refused => exact .cutShort ⟨_, Bool.not_eq_true _ ▸ refused⟩ rfl rfl

end Command

namespace Call

open Command (Follows follows_say follows_stop follows_showing)

theorem exists_read_eq_error {workspace : Workspace} {name : String} {cause : Workspace.Refusal}
    (refused : workspace.key name = .error cause) (disk : Disk) :
    ∃ failure, workspace.read disk name = .error failure := by
  simp only [Workspace.key] at refused
  cases resolved : workspace.resolve name with
  | error refusal =>
      refine ⟨.refused refusal, ?_⟩
      simp only [Workspace.read, resolved, Except.mapError, bind, Except.bind]
  | ok path => simp [resolved, Except.map] at refused

theorem follows_commitEdit (situation : Situation) {gate : Gate} {request : EditRequest}
    {edit : Edit} {text : List Char} {history : History}
    (planned : plan gate (gate.workspace.read situation.disk request.file).toOption
      (apply situation.now request.file edit ⟨request.acceptFix, false⟩) = .write text history) :
    Follows situation.host situation.disk
      ((Plan.write text history).finish situation.host.device gate situation.disk
        (apply situation.now request.file edit ⟨request.acceptFix, false⟩))
      (Command.commitEdit situation gate request edit) := by
  obtain ⟨key, trial, repaired, applied⟩ := applyOn_of_plan planned situation.host.device
  simp only [Command.commitEdit, applied, Plan.finish, Call.name]
  rcases gate.workspace.writeOn situation.host.device situation.disk request.file text with
    ⟨after, cause | ⟨⟩⟩
  · exact follows_say { situation with disk := after } situation.disk .usage _
  · simp only [Gate.Application.written, if_true, saveLast]
    rcases ({ gate with history := history } : Gate).saveOn situation.host.device after with
      ⟨saved, cause | ⟨⟩⟩
    · exact follows_stop { situation with disk := saved } situation.disk (.save cause)
    · exact follows_say { situation with disk := saved } situation.disk .success _

theorem follows_runTrial (situation : Situation) {gate : Gate} {request : EditRequest}
    {edit : Edit} {key : String} {current : List Char} {report : Report}
    (yes : request.yes = true) (nameable : (Route.ofText request.file).isNameable = true)
    (keyed : gate.workspace.key request.file = .ok key)
    (readable : gate.workspace.read situation.disk request.file = .ok current)
    (judged : Report.ofEdit gate.policy current edit = .ok report) :
    Follows situation.host situation.disk
      ((editPlan gate situation.now key edit ⟨request.acceptFix, request.dryRun⟩ current).finish
        situation.host.device gate situation.disk
        (apply situation.now request.file edit ⟨request.acceptFix, request.dryRun⟩))
      (Command.runTrial gate request edit ⟨current, report⟩ situation) := by
  simp only [Command.runTrial, editPlan, judged]
  cases accepted : Gate.accepted report request.acceptFix with
  | none => exact follows_say situation situation.disk .invalid _
  | some taken =>
  refine follows_showing situation fun shown => ?_
  cases dry : request.dryRun with
  | true => exact follows_say { situation with shown := shown } situation.disk .success _
  | false =>
      simp only [Bool.false_eq_true, if_false, Command.confirmed, yes, if_true]
      refine follows_commitEdit { situation with shown := shown } ?_
      simp only [plan, planFor, nameable, keyed, readable, Except.toOption, editPlan, judged,
        accepted, if_true, Bool.false_eq_true, if_false]

theorem follows_runEditWith {situation : Situation} {gate : Gate} {request : EditRequest}
    {edit : Edit} (yes : request.yes = true) :
    Follows situation.host situation.disk
      ((plan gate (gate.workspace.read situation.disk request.file).toOption
        (apply situation.now request.file edit ⟨request.acceptFix, request.dryRun⟩)).finish
          situation.host.device gate situation.disk
          (apply situation.now request.file edit ⟨request.acceptFix, request.dryRun⟩))
      (Command.runEditWith situation gate request edit) := by
  simp only [plan, planFor, Command.runEditWith, Gate.trial, Gate.text, Gate.named]
  cases nameable : (Route.ofText request.file).isNameable with
  | false => exact follows_stop situation situation.disk (.gate .unnameable)
  | true =>
  cases keyed : gate.workspace.key request.file with
  | error refusal =>
      obtain ⟨failure, unreadable⟩ := exists_read_eq_error keyed situation.disk
      simp only [unreadable]
      exact follows_say situation situation.disk .usage _
  | ok key =>
  cases readable : gate.workspace.read situation.disk request.file with
  | error failure => exact follows_say situation situation.disk .usage _
  | ok current =>
  simp only [Except.mapError, bind, Except.bind, Except.toOption, if_true]
  cases judged : Report.ofEdit gate.policy current edit with
  | error problem =>
      simp only [editPlan, judged]
      cases Gate.isKindError problem with
      | false => exact follows_say situation situation.disk .usage _
      | true => exact follows_stop situation situation.disk (.gate (.edit problem))
  | ok report =>
      refine follows_showing situation fun shown => ?_
      exact follows_runTrial { situation with shown := shown } yes nameable keyed readable judged

theorem follows_commitUndo {situation : Situation} {gate : Gate} {file : String} {steps : Value} :
    Follows situation.host situation.disk
      ((plan gate (gate.workspace.read situation.disk file).toOption (rollback file steps)).finish
        situation.host.device gate situation.disk (rollback file steps))
      (Command.commitUndo situation gate file steps) := by
  simp only [plan, planFor, Command.commitUndo, Gate.rollbackOn, Gate.named]
  cases (Route.ofText file).isNameable with
  | false => exact follows_stop situation situation.disk (.gate .unnameable)
  | true =>
  cases gate.workspace.key file with
  | error refusal => exact follows_say situation situation.disk .invalid _
  | ok key =>
  cases gate.workspace.read situation.disk file with
  | error failure => exact follows_say situation situation.disk .invalid _
  | ok current =>
  simp only [Except.toOption, undoPlan, if_true]
  cases (gate.history.head? key).any (!Gate.isHead current ·) with
  | true => exact follows_say situation situation.disk .invalid _
  | false =>
  simp only [Bool.false_eq_true, if_false]
  cases gate.history.rollback key steps (.str (String.ofList current)) with
  | error problem =>
      cases problem with
      | stepsTooFew | insufficient => exact follows_say situation situation.disk .invalid _
      | _ => exact follows_stop situation situation.disk (.gate (.history _))
  | ok taken =>
  simp only [Plan.finish, saveLast, Call.name]
  rcases gate.workspace.writeOn situation.host.device situation.disk file taken.1 with
    ⟨after, cause | ⟨⟩⟩
  · exact follows_say { situation with disk := after } situation.disk .invalid _
  · simp only
    rcases ({ gate with history := taken.2 } : Gate).saveOn situation.host.device after with
      ⟨saved, cause | ⟨⟩⟩
    · exact follows_stop { situation with disk := saved } situation.disk (.save cause)
    · exact follows_say { situation with disk := saved } situation.disk .success _

end Call

namespace Command

/-- A command to edit or to take edits back that does not ask first. -/
def IsUnasked : Command → Prop
  | edit request => request.yes = true
  | undo _ _ yes => yes = true
  | check _ _ _ _ | history _ => False

variable {situation : Situation} {root : Path} {settings : Settings} {gate loaded : Gate}
  {found : Bool} {command : Command}

theorem run_eq_runInvocation {arguments : List String} {invocation : Invocation}
    (asked : Invocation.ofArguments arguments = .ok invocation) (situation : Situation) :
    run situation arguments = runInvocation situation invocation := by
  have present : arguments ≠ [] := by
    rintro rfl
    cases asked
  rw [run, asked]
  exact present

theorem runGated_eq (made : Gate.ofSettings? (.ofPath root) settings = some gate)
    (loads : gate.load situation.host.nesting situation.disk = .ok (loaded, found))
    (next : Gate → Outcome) :
    runGated situation root settings next = next loaded := by
  simp only [runGated, made, loads]

/-- A command ends as the plan of its call does, unless something cannot be shown. -/
theorem follows_runIn (made : Gate.ofSettings? (.ofPath root) settings = some gate)
    (loads : gate.load situation.host.nesting situation.disk = .ok (loaded, found))
    (unasked : command.IsUnasked) {call : Call} (called : command.call? situation = some call) :
    Follows situation.host situation.disk
      ((Call.plan loaded (loaded.workspace.read situation.disk call.name).toOption call).finish
        situation.host.device loaded situation.disk call)
      (runIn situation root settings command) := by
  cases command with
  | check path endings json snippets => cases unasked
  | history file => cases unasked
  | edit request =>
      rw [runIn, runGated_eq made loads, runEdit]
      simp only [call?] at called
      split at called
      next payload operation first given isOperation isFirst =>
        cases called
        simp only [given, isOperation, isFirst]
        exact Call.follows_runEditWith unasked
      next => cases called
  | undo file steps yes =>
      obtain rfl : yes = true := unasked
      cases called
      rw [runIn, runGated_eq made loads, runUndo, confirmed, if_pos rfl]
      exact Call.follows_commitUndo

/-- A run that says why it fails changes nothing by it and does not end well. -/
theorem say_usage (situation : Situation) (text : String) :
    (say situation .usage text).disk = situation.disk ∧
      (say situation .usage text).ending ≠ .exit .success := by
  cases follows_say situation situation.disk .usage text with
  | reached ended same => exact ⟨same, by simp [ended]⟩
  | cutShort _ ended same => exact ⟨same, by simp [ended]⟩
  | untold _ _ ended same => exact ⟨same, by simp [ended]⟩

/-- A command that makes no call changes nothing and does not end well. -/
theorem runIn_of_call?_eq_none (made : Gate.ofSettings? (.ofPath root) settings = some gate)
    (loads : gate.load situation.host.nesting situation.disk = .ok (loaded, found))
    (unasked : command.IsUnasked) (uncalled : command.call? situation = none) :
    (runIn situation root settings command).disk = situation.disk ∧
      (runIn situation root settings command).ending ≠ .exit .success := by
  cases command with
  | check path endings json snippets => cases unasked
  | history file => cases unasked
  | undo file steps yes => cases uncalled
  | edit request =>
      rw [runIn, runGated_eq made loads, runEdit]
      simp only [call?] at uncalled
      cases given : newText situation request.source with
      | error cause =>
          rcases cause with refusal | ⟨trouble, shown⟩ | fault
          · exact say_usage situation _
          · cases trouble with
            | unnameable => exact ⟨rfl, nofun⟩
            | _ => exact say_usage situation _
          · exact ⟨rfl, nofun⟩
      | ok payload =>
      cases isOperation : request.operation with
      | none => exact ⟨rfl, nofun⟩
      | some operation =>
      cases isFirst : request.first with
      | some first => simp [given, isOperation, isFirst] at uncalled
      | none =>
      simp only
      rcases loaded.text situation.disk request.file with cause | failure | text
      · exact ⟨rfl, nofun⟩
      · exact say_usage situation _
      · exact ⟨rfl, nofun⟩

end Command

end EditGate

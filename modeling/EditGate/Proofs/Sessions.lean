import EditGate.Gate
import EditGate.Proofs.Files
import Mathlib

/-!
# Sessions

A session is a gate that serves requests one after the other, on a disk that others may
change in between. Whatever a request is, it does one of three things: it leaves all as it
is, it commits a valid text to one file, or it writes an earlier text back. What is known of
a session is derived from these three.
-/

namespace EditGate.Gate

/-! ## Requests -/

/-- A request to a gate. -/
inductive Request where
  | check (name : String)
  | preview (name : String) (edit : Edit)
  | apply (now : Binary64) (name : String) (edit : Edit) (mode : Mode)
  | rollback (name : String) (steps : Int)

/-- The name of the file that a request is about. -/
def Request.name : Request → String
  | check name | preview name _ | apply _ name _ _ | rollback name _ => name

/-- What a request gives back. -/
inductive Answer where
  | checked (check : Check)
  | tried (outcome : Except Failure Trial)
  | applied (outcome : Except Failure Application)
  | undone (outcome : Except Failure Undone)
  /-- There is no answer, and nothing has happened. -/
  | stopped (fault : Fault)

namespace Answer

/-- The text that was committed. -/
def committed? : Answer → Option (List Char)
  | applied (.ok application) =>
      match application.disposition with
      | .committed text _ => some text
      | _ => none
  | _ => none

/-- The text that was written back. -/
def restored? : Answer → Option (List Char)
  | undone (.ok outcome) => some outcome.content
  | _ => none

/-- The text that was written. -/
def written? (answer : Answer) : Option (List Char) :=
  answer.committed? <|> answer.restored?

end Answer

/-- A gate and the disk that its workspace is on. -/
structure Session where
  gate : Gate
  disk : Disk

/-- Serves a request. -/
def Session.perform (session : Session) : Request → Answer × Session
  | .check name =>
      match session.gate.check session.disk name with
      | .ok check => (.checked check, session)
      | .error fault => (.stopped fault, session)
  | .preview name edit =>
      match session.gate.trial session.disk name edit with
      | .ok outcome => (.tried outcome, session)
      | .error fault => (.stopped fault, session)
  | .apply now name edit mode =>
      match session.gate.apply session.disk now name edit mode with
      | .ok (gate, disk, outcome) => (.applied outcome, ⟨gate, disk⟩)
      | .error fault => (.stopped fault, session)
  | .rollback name steps =>
      match session.gate.rollback session.disk name (.int steps) with
      | .ok (gate, disk, outcome) => (.undone outcome, ⟨gate, disk⟩)
      | .error fault => (.stopped fault, session)

/-! ## What a request does -/

/-- What a request can do to a session. -/
inductive Session.Effect (session : Session) : Request → Answer → Session → Prop where
  /-- All stays as it is. -/
  | idle {request : Request} {answer : Answer} :
      answer.committed? = none → answer.restored? = none → Effect session request answer session
  /-- A valid text is written to a file and recorded. -/
  | commit {now : Binary64} {name : String} {edit : Edit} {mode : Mode} {path : Path}
      {before after : List Char} {disk : Disk} {answer : Answer} :
      session.gate.workspace.Leads name path →
      session.gate.workspace.read session.disk name = .ok before →
      (Report.ofText session.gate.policy after).valid →
      session.gate.workspace.write session.disk name after = (disk, .ok ()) →
      answer.committed? = some after → answer.restored? = none →
      Effect session (.apply now name edit mode) answer
        ⟨{ session.gate with
            history := session.gate.history.record now (session.gate.workspace.keyAt path)
              before after (some edit) }, disk⟩
  /-- An earlier text is written back, and its commit is no longer recorded. -/
  | restore {name : String} {steps : Int} {path : Path} {current restored : List Char}
      {history : History} {disk : Disk} {answer : Answer} :
      session.gate.workspace.Leads name path →
      session.gate.workspace.read session.disk name = .ok current →
      session.gate.history.rollback (session.gate.workspace.keyAt path) (.int steps)
          (.str (String.ofList current)) = .ok (restored, history) →
      session.gate.workspace.write session.disk name restored = (disk, .ok ()) →
      answer.committed? = none → answer.restored? = some restored →
      Effect session (.rollback name steps) answer ⟨{ session.gate with history := history }, disk⟩

section Effect

variable {gate next : Gate} {disk after : Disk} {name : String} {edit : Edit}

/-- A trial is of the text of the file. -/
theorem trial_eq_ok {trial : Trial} (tried : gate.trial disk name edit = .ok (.ok trial)) :
    gate.workspace.read disk name = .ok trial.text ∧
      Report.ofEdit gate.policy trial.text edit = .ok trial.report := by
  simp only [Gate.trial, Gate.text, named] at tried
  split at tried
  · cases readable : gate.workspace.read disk name with
    | error cause =>
        simp only [readable, Except.mapError, bind, Except.bind] at tried
        cases tried
    | ok text =>
        simp only [readable, Except.mapError, bind, Except.bind] at tried
        split at tried
        next report judged =>
          cases tried
          exact ⟨rfl, judged⟩
        · split at tried <;> cases tried
  · cases tried

/-- A repaired text has no errors. -/
theorem valid_of_repaired {policy : Policy} {analysis : Analysis} {text fixed : List Char}
    (repaired : Report.repaired policy analysis text = some fixed) :
    (Report.ofText policy fixed).valid := by
  simp only [Report.repaired] at repaired
  split at repaired
  · split at repaired
    next clean =>
      cases repaired
      rw [List.isEmpty_iff] at clean
      simp [Report.valid, Report.ofText, Finding.sort, clean]
    · cases repaired
  · cases repaired

/-- What is accepted is valid: the candidate itself, or what the repair made of it. -/
theorem valid_of_accepted {policy : Policy} {before text : List Char} {report : Report}
    {acceptFix repaired : Bool} (judged : Report.ofEdit policy before edit = .ok report)
    (taken : accepted report acceptFix = some (text, repaired)) :
    (Report.ofText policy text).valid := by
  cases made : edit.apply before with
  | error cause =>
      rw [Report.ofEdit, made] at judged
      cases judged
  | ok candidate =>
      rw [Report.ofEdit, made] at judged
      cases judged
      simp only [accepted] at taken
      split at taken
      next valid =>
        cases taken
        exact valid
      · split at taken
        · obtain ⟨fixed, offered, equal⟩ := Option.map_eq_some_iff.1 taken
          cases equal
          exact valid_of_repaired offered
        · cases taken

/-- An accepted text is written and recorded, or else all stays as it is. -/
theorem commit_effect {now : Binary64} {mode : Mode} {path : Path} {trial : Trial}
    {text : List Char} {repaired : Bool} (leads : gate.workspace.Leads name path)
    (tried : gate.trial disk name edit = .ok (.ok trial))
    (taken : accepted trial.report mode.acceptFix = some (text, repaired)) :
    Session.Effect ⟨gate, disk⟩ (.apply now name edit mode)
      (.applied (.ok ⟨name, gate.workspace.keyAt path, trial,
        (gate.commit .sound disk now name (gate.workspace.keyAt path) edit text repaired
          trial.text).2.2⟩))
      ⟨(gate.commit .sound disk now name (gate.workspace.keyAt path) edit text repaired
          trial.text).1,
        (gate.commit .sound disk now name (gate.workspace.keyAt path) edit text repaired
          trial.text).2.1⟩ := by
  obtain ⟨readable, judged⟩ := trial_eq_ok tried
  rw [commit, Workspace.writeOn_sound]
  cases wrote : gate.workspace.write disk name text with
  | mk after outcome =>
      cases outcome with
      | error cause =>
          obtain rfl := leads.eq_of_write_error readable wrote
          exact .idle rfl rfl
      | ok =>
          exact .commit leads readable (valid_of_accepted judged taken) wrote rfl rfl

theorem apply_effect {now : Binary64} {mode : Mode} {outcome : Except Failure Application}
    (applied : gate.apply disk now name edit mode = .ok (next, after, outcome)) :
    Session.Effect ⟨gate, disk⟩ (.apply now name edit mode) (.applied outcome) ⟨next, after⟩ := by
  simp only [Gate.apply, applyOn, named] at applied
  split at applied
  · split at applied
    · cases applied
      exact .idle rfl rfl
    next key keyed =>
      obtain ⟨path, leads, rfl⟩ := Workspace.exists_leads_of_key keyed
      cases tried : gate.trial disk name edit with
      | error fault =>
          rw [tried] at applied
          cases applied
      | ok trial =>
          simp only [tried, bind, Except.bind] at applied
          cases trial with
          | error failure =>
              cases applied
              exact .idle rfl rfl
          | ok trial =>
              simp only at applied
              split at applied
              · cases applied
                exact .idle rfl rfl
              next text repaired taken =>
                split at applied
                · cases applied
                  exact .idle rfl rfl
                · cases applied
                  exact commit_effect leads tried taken
  · cases applied

theorem rollback_effect {steps : Int} {outcome : Except Failure Undone}
    (undone : gate.rollback disk name (.int steps) = .ok (next, after, outcome)) :
    Session.Effect ⟨gate, disk⟩ (.rollback name steps) (.undone outcome) ⟨next, after⟩ := by
  simp only [Gate.rollback, rollbackOn, named, Workspace.writeOn_sound] at undone
  split at undone
  · split at undone
    · cases undone
      exact .idle rfl rfl
    next key keyed =>
      obtain ⟨path, leads, rfl⟩ := Workspace.exists_leads_of_key keyed
      split at undone
      · cases undone
        exact .idle rfl rfl
      next current readable =>
        split at undone
        · cases undone
          exact .idle rfl rfl
        · split at undone
          · cases undone
            exact .idle rfl rfl
          · cases undone
            exact .idle rfl rfl
          · cases undone
          next restored history taken =>
            split at undone
            next wrote =>
              cases undone
              obtain rfl := leads.eq_of_write_error readable wrote
              exact .idle rfl rfl
            next wrote =>
              cases undone
              exact .restore leads readable taken wrote rfl rfl
  · cases undone

end Effect

/-- A request does one of the three things. -/
theorem Session.effect_perform (session : Session) (request : Request) :
    session.Effect request (session.perform request).1 (session.perform request).2 := by
  cases request with
  | check name =>
      simp only [perform]
      split <;> exact .idle rfl rfl
  | preview name edit =>
      simp only [perform]
      split <;> exact .idle rfl rfl
  | apply now name edit mode =>
      simp only [perform]
      split
      next applied => exact apply_effect applied
      · exact .idle rfl rfl
  | rollback name steps =>
      simp only [perform]
      split
      next undone => exact rollback_effect undone
      · exact .idle rfl rfl

/-! ## Edits that are carried out -/

/-- Whether an edit makes a valid text of what a file holds, and that can be written. -/
structure CanCommit (workspace : Workspace) (policy : Policy) (disk : Disk) (name : String)
    (edit : Edit) (before after : List Char) (next : Disk) : Prop where
  readable : workspace.read disk name = .ok before
  made : edit.apply before = .ok after
  valid : (Report.ofText policy after).valid
  wrote : workspace.write disk name after = (next, .ok ())

/-- An edit that can be committed is, and the text that it makes is not repaired. -/
theorem CanCommit.apply_eq {gate : Gate} {disk next : Disk} {name : String} {path : Path}
    {edit : Edit} {before after : List Char} {mode : Mode}
    (possible : CanCommit gate.workspace gate.policy disk name edit before after next)
    (leads : gate.workspace.Leads name path) (wet : mode.dryRun = false) (now : Binary64) :
    gate.apply disk now name edit mode =
      .ok ({ gate with
          history := gate.history.record now (gate.workspace.keyAt path) before after
            (some edit) }, next,
        .ok ⟨name, gate.workspace.keyAt path, ⟨before, Report.ofText gate.policy after⟩,
          .committed after false⟩) := by
  have tried : gate.trial disk name edit =
      .ok (.ok ⟨before, Report.ofText gate.policy after⟩) := by
    simp only [Gate.trial, Gate.text, named, leads.isNameable, possible.readable, if_true, bind,
      Except.bind, Except.mapError, Report.ofEdit, possible.made]
    rfl
  have taken : accepted (Report.ofText gate.policy after) mode.acceptFix =
      some (after, false) := by
    rw [accepted, if_pos possible.valid]
    rfl
  simp only [Gate.apply, applyOn, named, leads.isNameable, leads.key_eq, tried, taken, wet, if_true,
    bind, Except.bind, commit, Workspace.writeOn_sound, possible.wrote]
  rfl

/-- A result that can be computed is known by computing it. -/
theorem eq_ok_of_toOption {ε α : Type} {outcome : Except ε α} {value : α}
    (computed : outcome.toOption = some value) : outcome = .ok value := by
  cases outcome with
  | error cause => cases computed
  | ok other => exact congrArg _ (Option.some.inj computed)

theorem canCommit_of_toOption {workspace : Workspace} {policy : Policy} {disk : Disk}
    {name : String} {edit : Edit} {before after : List Char}
    (computed : (workspace.read disk name).toOption = some before ∧
      (edit.apply before).toOption = some after ∧ (Report.ofText policy after).valid ∧
      (workspace.write disk name after).2.toOption = some ()) :
    CanCommit workspace policy disk name edit before after
      (workspace.write disk name after).1 :=
  ⟨eq_ok_of_toOption computed.1, eq_ok_of_toOption computed.2.1, computed.2.2.1,
    Prod.ext rfl (eq_ok_of_toOption computed.2.2.2)⟩

end EditGate.Gate

import EditGate.History.Archive
import EditGate.Report
import EditGate.Workspace

/-!
# The gate

Edits of the files of a workspace go through a gate: the text that an edit would make is
judged first, and only a valid one is written and recorded. A refused edit writes nothing
and records nothing.

Recorded edits can be taken back as long as the file still is what the latest one left.

A request that makes no sense at all, such as one about a name that no file can have, is a
fault and gets no answer.
-/

namespace EditGate

/-- A workspace with its settings and the history of its files. -/
structure Gate where
  workspace : Workspace
  settings : Settings
  policy : Policy
  history : History

namespace Gate

/-- A gate with an empty history, if the settings make a policy. -/
def ofSettings? (workspace : Workspace) (settings : Settings) : Option Gate :=
  settings.policy?.map fun policy =>
    { workspace := workspace, settings := settings, policy := policy,
      history := .ofSettings settings }

/-- Why a request about a file is not carried out. -/
inductive Failure where
  | unreadable (cause : Workspace.ReadError)
  | invalidEdit (cause : Edit.Error)
  | refused (cause : Workspace.Refusal)
  | changed
  | insufficient (cause : History.Error)
  | unwritable (cause : Workspace.WriteError)

namespace Failure

/-- The name of a failure. -/
def status : Failure → String
  | unreadable _ => "READ_ERROR"
  | invalidEdit _ => "INVALID_EDIT"
  | refused _ => "OUTSIDE_WORKSPACE"
  | changed => "FILE_CHANGED"
  | insufficient _ => "INSUFFICIENT_HISTORY"
  | unwritable _ => "WRITE_ERROR"

/-- The wording of a failure. -/
def message : Failure → String
  | unreadable cause => cause.message
  | invalidEdit cause => cause.message
  | refused cause => cause.message
  | changed => "File changed since the last recorded edit; refusing to roll back"
  | insufficient cause => cause.message
  | unwritable cause => cause.message

/-- A failure as data. -/
def toValue (failure : Failure) (name : String) : Value :=
  .object [("file_path", .str name), ("status", .str failure.status),
    ("error", .str failure.message), ("success", .bool false), ("written", .bool false)]

end Failure

/-- Why a request makes no sense. -/
inductive Fault where
  /-- No file can have the name. -/
  | unnameable
  /-- A part of an edit is of the wrong kind. -/
  | edit (cause : Edit.Error)
  /-- The number of edits to take back is of the wrong kind, or a recipe does not fit. -/
  | history (cause : History.Error)

/-- Goes on if files can have the name. -/
def named {α : Type} (name : String) (next : Except Fault α) : Except Fault α :=
  if (Route.ofText name).isNameable then next else .error .unnameable

/-! ### Looking -/

/-- The verdict on a file as it is. -/
structure Check where
  name : String
  outcome : Except Failure Report

namespace Check

/-- Whether the file is valid. -/
def success (check : Check) : Bool :=
  match check.outcome with
  | .ok report => report.valid
  | .error _ => false

/-- A verdict as data. -/
def toValue (check : Check) : Value :=
  match check.outcome with
  | .error failure => failure.toValue check.name
  | .ok report =>
      .object [("file_path", .str check.name), ("success", .bool report.valid),
        ("status", .str (if report.valid then "VALID" else "INVALID")),
        ("report", report.toValue), ("error_count", .int report.errors.length),
        ("warning_count", .int report.warnings.length), ("fixable", .bool report.fixed.isSome)]

end Check

/-- The verdict on a file as it is. -/
def verdict (gate : Gate) (disk : Disk) (name : String) : Check :=
  { name := name
    outcome := match gate.workspace.read disk name with
      | .ok text => .ok (Report.ofText gate.policy text)
      | .error cause => .error (.unreadable cause) }

/-- Judges a file as it is. -/
def check (gate : Gate) (disk : Disk) (name : String) : Except Fault Check :=
  named name (.ok (gate.verdict disk name))

/-- Judges every source file of the workspace that is not too deep. -/
def scan (gate : Gate) (disk : Disk) (depth : Value) :
    Except Workspace.DiscoverError (List Check) := do
  let paths ← gate.workspace.discover disk gate.settings.extensions depth
  .ok (paths.map fun path => gate.verdict disk (Workspace.keyText path))

/-- A text, and the verdict on what an edit makes of it. -/
structure Trial where
  text : List Char
  report : Report

/-- Whether an error of an edit is about the kind of its parts, and not about the text. -/
def isKindError : Edit.Error → Bool
  | .payloadNotText | .payloadNotSearchable | .lastNotNumber | .lastNotWhole => true
  | _ => false

/-- The text of a file. -/
def text (gate : Gate) (disk : Disk) (name : String) :
    Except Fault (Except Failure (List Char)) :=
  named name (.ok ((gate.workspace.read disk name).mapError .unreadable))

/-- Tries an edit of a file. -/
def trial (gate : Gate) (disk : Disk) (name : String) (edit : Edit) :
    Except Fault (Except Failure Trial) := do
  match ← gate.text disk name with
  | .error failure => .ok (.error failure)
  | .ok text =>
      match Report.ofEdit gate.policy text edit with
      | .ok report => .ok (.ok ⟨text, report⟩)
      | .error cause =>
          if isKindError cause then .error (.edit cause) else .ok (.error (.invalidEdit cause))

/-- A trial as data. -/
def Trial.toValue (trial : Trial) (name : String) : Value :=
  .object [("file_path", .str name), ("success", .bool trial.report.valid),
    ("status", .str "PREVIEW"), ("original", .str (String.ofList trial.text)),
    ("candidate", .str (String.ofList trial.report.candidate)),
    ("report", trial.report.toValue), ("written", .bool false)]

/-! ### Editing -/

/-- What became of an edit that was tried. -/
inductive Disposition where
  /-- It was refused. -/
  | rejected
  /-- It would be written. -/
  | dryRun (text : List Char) (repaired : Bool)
  /-- It could not be written. -/
  | unwritten (text : List Char) (repaired : Bool) (cause : Workspace.WriteError)
  /-- It was written and recorded. -/
  | committed (text : List Char) (repaired : Bool)

/-- The outcome of an edit. -/
structure Application where
  name : String
  key : String
  trial : Trial
  disposition : Disposition

namespace Application

/-- The name of the outcome. -/
def status (application : Application) : String :=
  match application.disposition with
  | .rejected => "REJECTED"
  | .dryRun _ _ => "PREVIEW"
  | .unwritten _ _ _ => "WRITE_ERROR"
  | .committed _ repaired => if repaired then "FIXED" else "APPLIED"

/-- Whether the file was written. -/
def written (application : Application) : Bool :=
  match application.disposition with
  | .committed _ _ => true
  | _ => false

/-- Whether the edit was accepted and not hindered. -/
def success (application : Application) : Bool :=
  match application.disposition with
  | .dryRun _ _ | .committed _ _ => true
  | _ => false

/-- Whether the repaired text was taken. -/
def repaired (application : Application) : Bool :=
  match application.disposition with
  | .rejected => false
  | .dryRun _ repaired | .unwritten _ repaired _ | .committed _ repaired => repaired

/-- The text that was taken, or else the one that was refused. -/
def content (application : Application) : List Char :=
  match application.disposition with
  | .rejected => application.trial.report.candidate
  | .dryRun text _ | .unwritten text _ _ | .committed text _ => text

/-- Why the file was not written, where that was tried. -/
def writeError? (application : Application) : Option Workspace.WriteError :=
  match application.disposition with
  | .unwritten _ _ cause => some cause
  | _ => none

/-- The outcome of an edit as data. -/
def toValue (application : Application) : Value :=
  .object ([("file_path", .str application.name), ("file_key", .str application.key),
    ("success", .bool application.success), ("status", .str application.status),
    ("original", .str (String.ofList application.trial.text)),
    ("report", application.trial.report.toValue),
    ("content", .str (String.ofList application.content)),
    ("written", .bool application.written), ("auto_fixed", .bool application.repaired)] ++
    match application.writeError? with
    | some cause => [("write_error", .str cause.message)]
    | none => [])

end Application

/-- The text to write after a trial, and whether it is the repaired one. -/
def accepted (report : Report) (acceptFix : Bool) : Option (List Char × Bool) :=
  if report.valid then some (report.candidate, false)
  else if acceptFix then report.fixed.map (·, true)
  else none

/-- How an edit is to be carried out. -/
structure Mode where
  /-- Whether the repaired text may be taken. -/
  acceptFix : Bool := false
  /-- Whether nothing is to be written. -/
  dryRun : Bool := false

/-- Writes the accepted text of a trial and records it. -/
def commit (gate : Gate) (device : Disk.Device) (disk : Disk) (now : Binary64)
    (name key : String) (edit : Edit) (text : List Char) (repaired : Bool)
    (before : List Char) : Gate × Disk × Disposition :=
  match gate.workspace.writeOn device disk name text with
  | (disk, .error cause) => (gate, disk, .unwritten text repaired cause)
  | (disk, .ok ()) =>
      ({ gate with history := gate.history.record now key before text (some edit) }, disk,
        .committed text repaired)

/-- Tries an edit and, if it is accepted, carries it out on a device. -/
def applyOn (gate : Gate) (device : Disk.Device) (disk : Disk) (now : Binary64) (name : String)
    (edit : Edit) (mode : Mode) : Except Fault (Gate × Disk × Except Failure Application) :=
  named name <|
    match gate.workspace.key name with
    | .error cause => .ok (gate, disk, .error (.refused cause))
    | .ok key => do
        match ← gate.trial disk name edit with
        | .error failure => .ok (gate, disk, .error failure)
        | .ok trial =>
            match accepted trial.report mode.acceptFix with
            | none => .ok (gate, disk, .ok ⟨name, key, trial, .rejected⟩)
            | some (text, repaired) =>
                if mode.dryRun then
                  .ok (gate, disk, .ok ⟨name, key, trial, .dryRun text repaired⟩)
                else
                  let (gate, disk, disposition) :=
                    gate.commit device disk now name key edit text repaired trial.text
                  .ok (gate, disk, .ok ⟨name, key, trial, disposition⟩)

/-- Tries an edit and, if it is accepted, carries it out, with nothing that breaks off. -/
def apply (gate : Gate) (disk : Disk) (now : Binary64) (name : String) (edit : Edit)
    (mode : Mode) : Except Fault (Gate × Disk × Except Failure Application) :=
  gate.applyOn .sound disk now name edit mode

/-! ### Undoing -/

/-- The outcome of taking edits back. -/
structure Undone where
  name : String
  /-- How many edits, as it was given. -/
  steps : Value
  content : List Char
  /-- How many more edits can be taken back. -/
  remaining : Nat

/-- The outcome as data. -/
def Undone.toValue (undone : Undone) : Value :=
  .object [("file_path", .str undone.name), ("success", .bool true),
    ("status", .str "ROLLED_BACK"), ("steps", undone.steps),
    ("content", .str (String.ofList undone.content)), ("remaining", .int undone.remaining),
    ("written", .bool true)]

/-- Whether a head is the given text. -/
def isHead (text : List Char) : Value → Bool
  | .str head => head.toList == text
  | _ => false

/-- Takes the latest edits of a file of a device back. -/
def rollbackOn (gate : Gate) (device : Disk.Device) (disk : Disk) (name : String)
    (steps : Value) : Except Fault (Gate × Disk × Except Failure Undone) :=
  named name <|
    match gate.workspace.key name with
    | .error cause => .ok (gate, disk, .error (.refused cause))
    | .ok key =>
        match gate.workspace.read disk name with
        | .error cause => .ok (gate, disk, .error (.unreadable cause))
        | .ok text =>
            if (gate.history.head? key).any (!isHead text ·) then
              .ok (gate, disk, .error .changed)
            else match gate.history.rollback key steps (.str (String.ofList text)) with
              | .error .stepsTooFew => .ok (gate, disk, .error (.insufficient .stepsTooFew))
              | .error (.insufficient key requested available) =>
                  .ok (gate, disk, .error (.insufficient (.insufficient key requested available)))
              | .error cause => .error (.history cause)
              | .ok (restored, history) =>
                  match gate.workspace.writeOn device disk name restored with
                  | (disk, .error cause) => .ok (gate, disk, .error (.unwritable cause))
                  | (disk, .ok ()) =>
                      .ok ({ gate with history := history }, disk,
                        .ok ⟨name, steps, restored, (history.entriesOf key).length⟩)

/-- Takes the latest edits of a file back, with nothing that breaks off. -/
def rollback (gate : Gate) (disk : Disk) (name : String) (steps : Value) :
    Except Fault (Gate × Disk × Except Failure Undone) :=
  gate.rollbackOn .sound disk name steps

/-- The recorded edits of a file in short. -/
def summaries (gate : Gate) (name : String) : Except Workspace.Refusal (List Value) :=
  (gate.workspace.key name).map gate.history.summaries

/-! ### Keeping the history -/

/-- The route to the stored history. -/
def historyRoute (gate : Gate) : Route :=
  (Route.ofText gate.settings.historyFile).under gate.workspace.root

/-- The path of the stored history. -/
def historyPath (gate : Gate) : Path :=
  gate.historyRoute.resolve []

/-- Why a stored history makes loading fail altogether. -/
inductive LoadError where
  /-- The place cannot be looked at. -/
  | disk (cause : Disk.Error)
  /-- It is no text. -/
  | undecodable (fault : Utf8.Fault)
  /-- A number of it cannot be held. -/
  | outOfRange
  /-- It is nested too deeply. -/
  | tooDeep
  /-- It names half of a pair, so that it is not judged. -/
  | halfPair

/-- What a gate makes of a history that was to be restored. If that cannot be used, the history
stays as it is; the result tells whether it was taken over. -/
def takeOver (gate : Gate) :
    Except History.ArchiveError History → Except LoadError (Gate × Bool)
  | .ok history => .ok ({ gate with history := history }, true)
  | .error .outOfRange => .error .outOfRange
  | .error .tooDeep => .error .tooDeep
  | .error .halfPair => .error .halfPair
  | .error _ => .ok (gate, false)

/-- Loads the stored history, which may be nested so many levels deep. If there is none, the
history stays as it is. -/
def load (gate : Gate) (nesting : Nat) (disk : Disk) : Except LoadError (Gate × Bool) := do
  if ← (disk.holds [] gate.historyRoute).mapError .disk then
    match disk.read [] gate.historyRoute with
    | .error _ => .ok (gate, false)
    | .ok octets =>
        let text ← (Utf8.decode octets).mapError .undecodable
        gate.takeOver (gate.history.restore nesting (Utf8.normalizeBreaks text))
  else .ok (gate, false)

/-- Why a history is not stored. -/
inductive SaveError where
  /-- The place cannot be written. -/
  | disk (cause : Disk.Error)
  /-- A number of it has too many digits. -/
  | unwritable
  /-- The device breaks off in it. -/
  | broken (reason : String)

/-- The wording of an error. -/
def SaveError.message : SaveError → String
  | disk cause => cause.message
  | unwritable => "A number of the history has too many digits"
  | broken reason => reason

/-- Hands the octets of the history over to a device, where they can be written. -/
def deliver (gate : Gate) (disk : Disk) (octets : List UInt8) :
    Disk.Delivery → Disk × Except SaveError Unit
  | .whole => (disk.put gate.historyPath (.file octets), .ok ())
  | .cut none reason => (disk, .error (.broken reason))
  | .cut (some count) reason =>
      (disk.put gate.historyPath (.file (octets.take count)), .error (.broken reason))

/-- Stores the history on a device. The directories for it are made first, and stay if it is
not. -/
def saveOn (gate : Gate) (device : Disk.Device) (disk : Disk) : Disk × Except SaveError Unit :=
  match disk.makeDirectories [] gate.historyRoute.parent with
  | (disk, .error cause) => (disk, .error (.disk cause))
  | (disk, .ok ()) =>
      match gate.history.toText? with
      | none => (disk, .error .unwritable)
      | some text =>
          let octets := Utf8.encode text
          match disk.write [] gate.historyRoute octets with
          | .error cause => (disk, .error (.disk cause))
          | .ok _ => gate.deliver disk octets (device gate.historyPath octets)

/-- Stores the history, with nothing that breaks off. -/
def save (gate : Gate) (disk : Disk) : Disk × Except SaveError Unit :=
  gate.saveOn .sound disk

end Gate

end EditGate

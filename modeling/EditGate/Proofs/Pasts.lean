import EditGate.Proofs.Sessions
import EditGate.Proofs.UndoStack
import Mathlib

/-!
# Pasts of files

An onlooker of a session notes, for every file, the commits that have not been taken back:
the text that the file held right before and the text that was written. The history holds
a recipe for each of the latest of them, as many as there is room for.

A recipe is made for one text only. So taking several commits back gives the text before
the earliest of them if each of them left the text that the next one found. If the file was
changed by someone else between two of them, the recipes are applied to texts that they
were not made for: what comes out is no text that the file ever held, or nothing at all.
-/

namespace EditGate.History

/-- Taking edits back from a given text fails for two reasons, or because a recipe does not
fit. -/
theorem rollback_from (history : History) (key : String) (steps : Int) (text : List Char) :
    history.rollback key (.int steps) (.str (String.ofList text)) =
      if steps < 1 then .error .stepsTooFew
      else if ((history.entriesOf key).length : Int) < steps then
        .error (.insufficient key (.int steps) (history.entriesOf key).length)
      else match undoAll text ((history.entriesOf key).take steps.toNat) with
        | .ok restored => .ok (restored, history.drop key steps.toNat restored)
        | .error fault => .error (.recipe fault) := by
  simp only [rollback, previewCount, Value.number?, less_whole, decide_eq_true_eq]
  by_cases tooFew : steps < 1
  · rw [if_pos tooFew, if_pos tooFew]
    rfl
  rw [if_neg tooFew, if_neg tooFew]
  by_cases tooMany : ((history.entriesOf key).length : Int) < steps
  · rw [if_pos tooMany, if_pos tooMany]
    rfl
  rw [if_neg tooMany, if_neg tooMany]
  simp only [start?, startFrom?, Value.whole?, Value.number?, textOf, String.toList_ofList, bind,
    Except.bind, Except.mapError]
  cases undoAll text ((history.entriesOf key).take steps.toNat) <;> rfl

/-- What is known of edits that were taken back from a given text. -/
theorem of_rollback_eq_ok {history next : History} {key : String} {steps : Int}
    {text restored : List Char}
    (taken : history.rollback key (.int steps) (.str (String.ofList text)) =
      .ok (restored, next)) :
    1 ≤ steps ∧ steps ≤ (history.entriesOf key).length ∧
      undoAll text ((history.entriesOf key).take steps.toNat) = .ok restored ∧
      next = history.drop key steps.toNat restored := by
  rw [rollback_from] at taken
  split at taken
  · cases taken
  next enough =>
    split at taken
    · cases taken
    next some =>
      split at taken
      next undone =>
        cases taken
        exact ⟨by omega, by omega, undone, rfl⟩
      · cases taken

end EditGate.History

namespace EditGate.Gate

/-! ## What an onlooker notes -/

/-- A commit: the text that the file held right before it, and the text that was written. -/
structure Commit where
  before : List Char
  after : List Char

/-- The commits of a file that have not been taken back, the latest first, and how many of
them can be: the others had to make room. -/
structure Past where
  commits : List Commit := []
  kept : Nat := 0

namespace Past

/-- The past after a commit. There is room for as many commits as the bound says. -/
def commit (bound : Option Nat) (commit : Commit) (past : Past) : Past where
  commits := commit :: past.commits
  kept := match bound with
    | some most => min most (past.kept + 1)
    | none => past.kept + 1

/-- The past after the latest commits were taken back. -/
def undo (steps : Nat) (past : Past) : Past where
  commits := past.commits.drop steps
  kept := past.kept - steps

end Past

/-- The pasts of all files. -/
abbrev Pasts := Path → Past

namespace Pasts

/-- The pasts after that of one file has changed. -/
def set (pasts : Pasts) (path : Path) (past : Past) : Pasts :=
  fun other => if other = path then past else pasts other

@[simp] theorem set_self (pasts : Pasts) (path : Path) (past : Past) :
    pasts.set path past path = past :=
  if_pos rfl

theorem set_of_ne (pasts : Pasts) {path other : Path} (different : other ≠ path) (past : Past) :
    pasts.set path past other = pasts other :=
  if_neg different

/-- What is noted when a request is served: a commit, with the text that was read right
before it, or that commits were taken back. -/
def note (pasts : Pasts) (session : Session) : Request → Pasts
  | .apply now name edit mode =>
      match session.gate.workspace.resolve name,
          session.gate.workspace.read session.disk name,
          (session.perform (.apply now name edit mode)).1.committed? with
      | .ok path, .ok before, some after =>
          pasts.set path ((pasts path).commit session.gate.history.capacity.bound ⟨before, after⟩)
      | _, _, _ => pasts
  | .rollback name steps =>
      match session.gate.workspace.resolve name,
          (session.perform (.rollback name steps)).1.restored? with
      | .ok path, some _ => pasts.set path ((pasts path).undo steps.toNat)
      | _, _ => pasts
  | _ => pasts

end Pasts

/-- A session, and what an onlooker has noted of its files. -/
structure Watch where
  session : Session
  pasts : Pasts

/-- What happens in a session: a request is served, or someone else changes the disk. -/
inductive Event where
  | request (request : Request)
  | outside (disk : Disk)

namespace Watch

/-- A session that starts with nothing recorded. -/
def start (gate : Gate) (disk : Disk) : Watch where
  session := ⟨{ gate with history := .empty gate.history.capacity }, disk⟩
  pasts := fun _ => {}

/-- Serves a request. -/
def serve (watch : Watch) (request : Request) : Watch where
  session := (watch.session.perform request).2
  pasts := watch.pasts.note watch.session request

/-- Goes on with an event. -/
def step (watch : Watch) : Event → Watch
  | .request request => watch.serve request
  | .outside disk => { watch with session := { watch.session with disk := disk } }

/-- Goes on with events one after the other. -/
def run (watch : Watch) (events : List Event) : Watch :=
  events.foldl step watch

/-- Goes on with another history and disk, and with another past of one file. -/
def moveTo (watch : Watch) (history : History) (disk : Disk) (path : Path) (past : Past) :
    Watch where
  session := ⟨{ watch.session.gate with history := history }, disk⟩
  pasts := watch.pasts.set path past

@[simp] theorem pasts_moveTo_self (watch : Watch) (history : History) (disk : Disk) (path : Path)
    (past : Past) : (watch.moveTo history disk path past).pasts path = past :=
  watch.pasts.set_self path past

theorem pasts_moveTo_of_ne (watch : Watch) (history : History) (disk : Disk) {path other : Path}
    (different : other ≠ path) (past : Past) :
    (watch.moveTo history disk path past).pasts other = watch.pasts other :=
  watch.pasts.set_of_ne different past

/-! ## What is noted of the three things that a request can do -/

/-- What serving a request can come to, beside the text that it writes. -/
inductive Serves (watch : Watch) (request : Request) : Option (List Char) → Watch → Prop where
  | idle : Serves watch request none watch
  | commit {now : Binary64} {name : String} {edit : Edit} {mode : Mode} {path : Path}
      {before after : List Char} {disk : Disk} :
      request = .apply now name edit mode →
      watch.session.gate.workspace.Leads name path →
      watch.session.gate.workspace.read watch.session.disk name = .ok before →
      (Report.ofText watch.session.gate.policy after).valid →
      watch.session.gate.workspace.write watch.session.disk name after = (disk, .ok ()) →
      Serves watch request (some after)
        (watch.moveTo
          (watch.session.gate.history.record now (watch.session.gate.workspace.keyAt path)
            before after (some edit)) disk path
          ((watch.pasts path).commit watch.session.gate.history.capacity.bound ⟨before, after⟩))
  | restore {name : String} {steps : Int} {path : Path} {current restored : List Char}
      {history : History} {disk : Disk} :
      request = .rollback name steps →
      watch.session.gate.workspace.Leads name path →
      watch.session.gate.workspace.read watch.session.disk name = .ok current →
      watch.session.gate.history.rollback (watch.session.gate.workspace.keyAt path)
          (.int steps) (.str (String.ofList current)) = .ok (restored, history) →
      watch.session.gate.workspace.write watch.session.disk name restored = (disk, .ok ()) →
      Serves watch request (some restored)
        (watch.moveTo history disk path ((watch.pasts path).undo steps.toNat))

theorem serves (watch : Watch) (request : Request) :
    watch.Serves request (watch.session.perform request).1.written? (watch.serve request) := by
  have effect := watch.session.effect_perform request
  generalize performed : watch.session.perform request = outcome at effect
  obtain ⟨answer, next⟩ := outcome
  rw [serve, performed]
  cases effect with
  | idle uncommitted unrestored =>
      have unnoted : watch.pasts.note watch.session request = watch.pasts := by
        cases request with
        | check | preview => rfl
        | apply now name edit mode =>
            simp only [Pasts.note, performed, uncommitted]
            split <;> simp_all
        | rollback name steps =>
            simp only [Pasts.note, performed, unrestored]
            split <;> simp_all
      rw [unnoted, Answer.written?, uncommitted, unrestored]
      exact .idle
  | @commit now name edit mode path before after disk _ leads readable valid wrote committed none =>
      have noted : watch.pasts.note watch.session (.apply now name edit mode) =
          watch.pasts.set path ((watch.pasts path).commit
            watch.session.gate.history.capacity.bound ⟨before, after⟩) := by
        simp only [Pasts.note, performed, committed, readable]
        rw [leads]
      rw [noted, Answer.written?, committed]
      exact .commit rfl leads readable valid wrote
  | @restore name steps path current restored history disk _ leads readable taken wrote none
      found =>
      have noted : watch.pasts.note watch.session (.rollback name steps) =
          watch.pasts.set path ((watch.pasts path).undo steps.toNat) := by
        simp only [Pasts.note, performed, found]
        rw [leads]
      rw [noted, Answer.written?, none, found]
      exact .restore rfl leads readable taken wrote

/-- An edit that can be committed is noted. -/
theorem serve_of_canCommit {watch : Watch} {disk : Disk} {name : String} {path : Path}
    {edit : Edit} {before after : List Char} {mode : Mode}
    (possible : CanCommit watch.session.gate.workspace watch.session.gate.policy
      watch.session.disk name edit before after disk)
    (leads : watch.session.gate.workspace.Leads name path) (wet : mode.dryRun = false)
    (now : Binary64) :
    watch.serve (.apply now name edit mode) =
      watch.moveTo
        (watch.session.gate.history.record now (watch.session.gate.workspace.keyAt path)
          before after (some edit)) disk path
        ((watch.pasts path).commit watch.session.gate.history.capacity.bound ⟨before, after⟩) := by
  rw [serve, Pasts.note, Session.perform, possible.apply_eq leads wet now, leads,
    possible.readable]
  rfl

end Watch

/-! ## The history holds recipes for what is noted -/

/-- Whether an entry takes a commit back. -/
def Commit.UndoneBy (commit : Commit) (entry : History.Entry) : Prop :=
  entry.undo commit.after = .ok commit.before

/-- Whether entries take back the commits of a past that can be. -/
structure Past.RecordedBy (past : Past) (entries : List History.Entry) : Prop where
  within : past.kept ≤ past.commits.length
  undone : List.Forall₂ Commit.UndoneBy (past.commits.take past.kept) entries

namespace Past.RecordedBy

variable {past : Past} {entries : List History.Entry}

theorem length_eq (recorded : past.RecordedBy entries) : entries.length = past.kept := by
  rw [← recorded.undone.length_eq, List.length_take, Nat.min_eq_left recorded.within]

/-- A commit is recorded in front, and the earliest one makes room. -/
theorem commit (recorded : past.RecordedBy entries) (capacity : History.Capacity)
    (now : Binary64) (before after : List Char) (edit : Option Edit) :
    (past.commit capacity.bound ⟨before, after⟩).RecordedBy
      (capacity.keep (History.Entry.ofTexts now before after edit :: entries)) := by
  have front : List.Forall₂ Commit.UndoneBy ((⟨before, after⟩ :: past.commits).take (past.kept + 1))
      (History.Entry.ofTexts now before after edit :: entries) :=
    .cons (Diff.Recipe.restore_ofTexts before after) recorded.undone
  have within := recorded.within
  simp only [Past.commit, History.Capacity.keep]
  cases capacity.bound with
  | none => exact ⟨Nat.succ_le_succ within, front⟩
  | some most =>
      refine ⟨(Nat.min_le_right _ _).trans (Nat.succ_le_succ within), ?_⟩
      rw [← List.take_take]
      exact List.forall₂_take most front

theorem undo (recorded : past.RecordedBy entries) (steps : Nat) :
    (past.undo steps).RecordedBy (entries.drop steps) := by
  have within := recorded.within
  refine ⟨?_, ?_⟩
  · simp only [Past.undo, List.length_drop]
    omega
  · simp only [Past.undo]
    rw [← List.drop_take]
    exact List.forall₂_drop steps recorded.undone

end Past.RecordedBy

namespace Watch

/-- Whether the history holds recipes for what is noted. -/
def Recorded (watch : Watch) : Prop :=
  ∀ name path, watch.session.gate.workspace.Leads name path →
    (watch.pasts path).RecordedBy
      (watch.session.gate.history.entriesOf (watch.session.gate.workspace.keyAt path))

theorem recorded_start (gate : Gate) (disk : Disk) : (start gate disk).Recorded :=
  fun _ _ _ => ⟨le_refl 0, .nil⟩

/-- Files at different paths are recorded apart. -/
theorem keyAt_ne {workspace : Workspace} {name other : String} {path place : Path}
    (leads : workspace.Leads name path) (also : workspace.Leads other place)
    (different : place ≠ path) : workspace.keyAt place ≠ workspace.keyAt path :=
  fun same => different (also.eq_of_keyAt_eq leads same)

variable {watch next : Watch} {request : Request} {written : Option (List Char)}

/-- What one file has become is seen in both, and the others have stayed the same. -/
theorem Recorded.moveTo (recorded : watch.Recorded) {name : String} {path : Path}
    (leads : watch.session.gate.workspace.Leads name path) {history : History} {past : Past}
    (changed : past.RecordedBy (history.entriesOf (watch.session.gate.workspace.keyAt path)))
    (others : ∀ key, key ≠ watch.session.gate.workspace.keyAt path →
      History.SameFile key watch.session.gate.history history) (disk : Disk) :
    (watch.moveTo history disk path past).Recorded := by
  intro other place also
  by_cases same : place = path
  · subst same
    rw [pasts_moveTo_self]
    exact changed
  · have untouched := others _ (keyAt_ne leads also same)
    rw [pasts_moveTo_of_ne watch history disk same]
    exact untouched.2.symm ▸ recorded other place also

theorem Recorded.serve (recorded : watch.Recorded) (serves : watch.Serves request written next) :
    next.Recorded := by
  cases serves with
  | idle => exact recorded
  | @commit now name edit mode path before after disk _ leads _ _ _ =>
      refine recorded.moveTo leads ?_
        (fun key different => History.sameFile_record different _ now before after _) disk
      rw [History.entriesOf_record_self]
      exact (recorded name path leads).commit _ now before after (some edit)
  | @restore name steps path current restored history disk _ leads _ taken _ =>
      obtain ⟨-, -, -, rfl⟩ := History.of_rollback_eq_ok taken
      refine recorded.moveTo leads ?_
        (fun key different => History.sameFile_drop different _ steps.toNat restored) disk
      rw [History.entriesOf_drop_self]
      exact (recorded name path leads).undo steps.toNat

theorem Recorded.step (recorded : watch.Recorded) (event : Event) :
    (watch.step event).Recorded := by
  cases event with
  | request request => exact recorded.serve (watch.serves request)
  | outside disk => exact recorded

theorem Recorded.run (recorded : watch.Recorded) (events : List Event) :
    (watch.run events).Recorded := by
  induction events generalizing watch with
  | nil => exact recorded
  | cons event rest ih => exact ih (recorded.step event)

/-- Of the gate, only the history ever changes, and not its capacity. -/
structure SameRules (first second : Gate) : Prop where
  workspace : second.workspace = first.workspace
  policy : second.policy = first.policy
  capacity : second.history.capacity = first.history.capacity

theorem Serves.sameRules (serves : watch.Serves request written next) :
    SameRules watch.session.gate next.session.gate := by
  cases serves with
  | idle => exact ⟨rfl, rfl, rfl⟩
  | commit => exact ⟨rfl, rfl, rfl⟩
  | restore _ _ _ taken _ =>
      obtain ⟨-, -, -, rfl⟩ := History.of_rollback_eq_ok taken
      exact ⟨rfl, rfl, rfl⟩

theorem sameRules_run (watch : Watch) (events : List Event) :
    SameRules watch.session.gate (watch.run events).session.gate := by
  induction events generalizing watch with
  | nil => exact ⟨rfl, rfl, rfl⟩
  | cons event rest ih =>
      have first : SameRules watch.session.gate (watch.step event).session.gate := by
        cases event with
        | request request => exact (watch.serves request).sameRules
        | outside disk => exact ⟨rfl, rfl, rfl⟩
      have later := ih (watch.step event)
      exact ⟨later.workspace.trans first.workspace, later.policy.trans first.policy,
        later.capacity.trans first.capacity⟩

end Watch

/-! ## Commits that follow each other -/

/-- Whether commits, the latest first, led to a text with nothing else happening to the file
in between: each left the text that the next one found, and the latest left the text. -/
def Linked (text : List Char) : List Commit → Prop
  | [] => True
  | commit :: rest => commit.after = text ∧ Linked commit.before rest

theorem Linked.take {text : List Char} {commits : List Commit} (linked : Linked text commits)
    (count : Nat) : Linked text (commits.take count) := by
  induction commits generalizing text count with
  | nil => rwa [List.take_nil]
  | cons commit rest ih =>
      cases count with
      | zero => trivial
      | succ count => exact ⟨linked.1, ih linked.2 count⟩

/-- The commits before one of them led to the text that it found. -/
theorem Linked.drop {text : List Char} {commits : List Commit} (linked : Linked text commits)
    {index : Nat} {commit : Commit} (found : commits[index]? = some commit) :
    Linked commit.before (commits.drop (index + 1)) := by
  induction commits generalizing text index with
  | nil => cases found
  | cons latest rest ih =>
      cases index with
      | zero =>
          cases found
          exact linked.2
      | succ index => exact ih linked.2 found

/-- Entries for commits that follow each other lead back through the texts before them. -/
theorem Linked.chain {text : List Char} {commits : List Commit} {entries : List History.Entry}
    (linked : Linked text commits) (undone : List.Forall₂ Commit.UndoneBy commits entries) :
    History.Chain text entries (commits.map Commit.before) := by
  induction undone generalizing text with
  | nil => exact .nil text
  | cons first _ ih =>
      obtain ⟨left, rest⟩ := linked
      exact .cons (left ▸ first) (ih rest)

/-- Taking back commits that follow each other gives the text before the earliest of them. -/
theorem Past.RecordedBy.undoAll_take {past : Past} {entries : List History.Entry}
    (recorded : past.RecordedBy entries) {text : List Char} {steps : Nat} (positive : 0 < steps)
    (enough : steps ≤ entries.length) (linked : Linked text (past.commits.take steps)) :
    ∃ commit, past.commits[steps - 1]? = some commit ∧
      History.undoAll text (entries.take steps) = .ok commit.before := by
  have kept : steps ≤ past.kept := recorded.length_eq ▸ enough
  have inside : steps - 1 < past.commits.length := by
    have := recorded.within
    omega
  -- Only the commits that are taken back have to follow each other, not all that are kept.
  have undone : List.Forall₂ Commit.UndoneBy (past.commits.take steps) (entries.take steps) := by
    have := List.forall₂_take steps recorded.undone
    rwa [List.take_take, Nat.min_eq_left kept] at this
  have reached : steps - 1 < ((past.commits.take steps).map Commit.before).length := by
    rw [List.length_map, List.length_take]
    omega
  have walked := ((linked.chain undone).undoAll_take reached).1
  refine ⟨past.commits[steps - 1], List.getElem?_eq_getElem inside, ?_⟩
  rw [Nat.sub_add_cancel positive, List.take_take, Nat.min_self] at walked
  rw [walked]
  simp [List.getD, inside, positive]

/-! ## Rollbacks -/

/-- All that a rollback of a file that can be read comes to. -/
theorem rollback_eq {gate : Gate} {disk : Disk} {name : String} {path : Path}
    {current : List Char} (leads : gate.workspace.Leads name path)
    (readable : gate.workspace.read disk name = .ok current) (steps : Int) :
    gate.rollback disk name (.int steps) =
      if (gate.history.head? (gate.workspace.keyAt path)).any (!isHead current ·) then
        .ok (gate, disk, .error .changed)
      else if steps < 1 then .ok (gate, disk, .error (.insufficient .stepsTooFew))
      else if ((gate.history.entriesOf (gate.workspace.keyAt path)).length : Int) < steps then
        .ok (gate, disk, .error (.insufficient (.insufficient (gate.workspace.keyAt path)
          (.int steps) (gate.history.entriesOf (gate.workspace.keyAt path)).length)))
      else match History.undoAll current
          ((gate.history.entriesOf (gate.workspace.keyAt path)).take steps.toNat) with
        | .error fault => .error (.history (.recipe fault))
        | .ok restored =>
            match gate.workspace.write disk name restored with
            | (disk, .error cause) => .ok (gate, disk, .error (.unwritable cause))
            | (disk, .ok ()) =>
                .ok ({ gate with
                    history :=
                      gate.history.drop (gate.workspace.keyAt path) steps.toNat restored }, disk,
                  .ok ⟨name, .int steps, restored,
                    ((gate.history.entriesOf (gate.workspace.keyAt path)).drop
                      steps.toNat).length⟩) := by
  simp only [Gate.rollback, rollbackOn, named, leads.isNameable, leads.key_eq, readable, if_true,
    Workspace.writeOn_sound, History.rollback_from]
  split
  · rfl
  by_cases tooFew : steps < 1
  · rw [if_pos tooFew, if_pos tooFew]
  rw [if_neg tooFew, if_neg tooFew]
  by_cases tooMany : ((gate.history.entriesOf (gate.workspace.keyAt path)).length : Int) < steps
  · rw [if_pos tooMany, if_pos tooMany]
  rw [if_neg tooMany, if_neg tooMany]
  cases History.undoAll current
      ((gate.history.entriesOf (gate.workspace.keyAt path)).take steps.toNat) with
  | error fault => rfl
  | ok restored =>
      simp only
      rcases gate.workspace.write disk name restored with ⟨after, _ | _⟩
      · rfl
      · simp only [History.entriesOf_drop_self]

/-- All that a rollback comes to if the head of the file is its text. -/
theorem perform_rollback_eq {session : Session} {name : String} {path : Path}
    {current : List Char} (leads : session.gate.workspace.Leads name path)
    (readable : session.gate.workspace.read session.disk name = .ok current)
    (unchanged : ∀ head ∈ session.gate.history.head? (session.gate.workspace.keyAt path),
      head = .str (String.ofList current)) (steps : Int) :
    session.perform (.rollback name steps) =
      if steps < 1 then (.undone (.error (.insufficient .stepsTooFew)), session)
      else if ((session.gate.history.entriesOf
          (session.gate.workspace.keyAt path)).length : Int) < steps then
        (.undone (.error (.insufficient (.insufficient (session.gate.workspace.keyAt path)
          (.int steps)
          (session.gate.history.entriesOf (session.gate.workspace.keyAt path)).length))), session)
      else match History.undoAll current ((session.gate.history.entriesOf
          (session.gate.workspace.keyAt path)).take steps.toNat) with
        | .error fault => (.stopped (.history (.recipe fault)), session)
        | .ok restored =>
            match session.gate.workspace.write session.disk name restored with
            | (disk, .error cause) =>
                (.undone (.error (.unwritable cause)), ⟨session.gate, disk⟩)
            | (disk, .ok ()) =>
                (.undone (.ok ⟨name, .int steps, restored,
                    ((session.gate.history.entriesOf (session.gate.workspace.keyAt path)).drop
                      steps.toNat).length⟩),
                  ⟨{ session.gate with
                      history := session.gate.history.drop (session.gate.workspace.keyAt path)
                        steps.toNat restored }, disk⟩) := by
  have guarded : ¬ (session.gate.history.head? (session.gate.workspace.keyAt path)).any
      (!isHead current ·) := by
    rw [Option.any_eq_true]
    rintro ⟨head, found, differs⟩
    rw [unchanged head found, isHead, String.toList_ofList] at differs
    simp at differs
  rw [Session.perform, rollback_eq leads readable, if_neg guarded]
  by_cases tooFew : steps < 1
  · rw [if_pos tooFew, if_pos tooFew]
  rw [if_neg tooFew, if_neg tooFew]
  by_cases tooMany : ((session.gate.history.entriesOf
      (session.gate.workspace.keyAt path)).length : Int) < steps
  · rw [if_pos tooMany, if_pos tooMany]
  rw [if_neg tooMany, if_neg tooMany]
  cases History.undoAll current
      ((session.gate.history.entriesOf (session.gate.workspace.keyAt path)).take steps.toNat) with
  | error fault => rfl
  | ok restored =>
      simp only
      rcases session.gate.workspace.write session.disk name restored with ⟨disk, _ | _⟩ <;> rfl

/-- A name that no file of the workspace has is refused, and a file that cannot be read is
not rolled back. -/
theorem exists_rollback_eq_ok {gate : Gate} {disk : Disk} {name : String}
    (nameable : (Route.ofText name).isNameable) (steps : Int)
    (unread : ∀ path current, gate.workspace.Leads name path →
      gate.workspace.read disk name ≠ .ok current) :
    ∃ outcome, gate.rollback disk name (.int steps) = .ok outcome := by
  simp only [Gate.rollback, rollbackOn, named, nameable, if_true]
  split
  · exact ⟨_, rfl⟩
  next keyed =>
    obtain ⟨path, leads, -⟩ := Workspace.exists_leads_of_key keyed
    split
    · exact ⟨_, rfl⟩
    next current readable => exact absurd readable (unread path current leads)

namespace Watch

variable {watch : Watch} {name : String} {steps : Int}

/-- If the commits to be taken back follow each other, a rollback gets an answer. -/
theorem Recorded.exists_undone (recorded : watch.Recorded)
    (nameable : (Route.ofText name).isNameable)
    (linked : ∀ path current, watch.session.gate.workspace.Leads name path →
      watch.session.gate.workspace.read watch.session.disk name = .ok current →
      Linked current ((watch.pasts path).commits.take steps.toNat)) :
    ∃ outcome next, watch.session.perform (.rollback name steps) = (.undone outcome, next) := by
  have answered : ∃ outcome,
      watch.session.gate.rollback watch.session.disk name (.int steps) = .ok outcome := by
    by_cases unread : ∀ path current, watch.session.gate.workspace.Leads name path →
        watch.session.gate.workspace.read watch.session.disk name ≠ .ok current
    · exact exists_rollback_eq_ok nameable steps unread
    · push Not at unread
      obtain ⟨path, current, leads, readable⟩ := unread
      rw [rollback_eq leads readable]
      split
      · exact ⟨_, rfl⟩
      split
      · exact ⟨_, rfl⟩
      split
      · exact ⟨_, rfl⟩
      next positive enough =>
        obtain ⟨commit, -, undone⟩ := (recorded name path leads).undoAll_take
          (by omega) (by omega) (linked path current leads readable)
        rw [undone]
        simp only
        split
        · exact ⟨_, rfl⟩
        · exact ⟨_, rfl⟩
  obtain ⟨⟨gate, disk, outcome⟩, rolled⟩ := answered
  exact ⟨outcome, ⟨gate, disk⟩, by rw [Session.perform, rolled]⟩

/-- A rollback that is carried out writes its text to the file. If the commits that it takes
back follow each other, this is the text before the earliest of them. -/
theorem Recorded.of_undone (recorded : watch.Recorded) {undone : Undone} {next : Session}
    (performed : watch.session.perform (.rollback name steps) = (.undone (.ok undone), next)) :
    ∃ path current, watch.session.gate.workspace.Leads name path ∧
      watch.session.gate.workspace.read watch.session.disk name = .ok current ∧
      next.disk.item? path = some (.file (Utf8.encode undone.content)) ∧
      (Linked current ((watch.pasts path).commits.take steps.toNat) →
        ∃ commit, (watch.pasts path).commits[steps.toNat - 1]? = some commit ∧
          undone.content = commit.before) := by
  have effect := watch.session.effect_perform (.rollback name steps)
  rw [performed] at effect
  cases effect with
  | idle _ unrestored => cases unrestored
  | @restore _ _ path current restored history disk _ leads readable taken wrote _ found =>
      cases found
      obtain ⟨positive, enough, undoes, -⟩ := History.of_rollback_eq_ok taken
      rw [leads.write_eq] at wrote
      refine ⟨path, current, leads, readable, (Workspace.replace_eq_ok wrote).2, fun linked => ?_⟩
      obtain ⟨commit, found, also⟩ :=
        (recorded name path leads).undoAll_take (by omega) (by omega) linked
      rw [undoes] at also
      exact ⟨commit, found, Except.ok.inj also⟩

/-- A rollback that is not carried out changes nothing. -/
theorem eq_of_unrestored {session next : Session} {answer : Answer}
    (performed : session.perform (.rollback name steps) = (answer, next))
    (unrestored : answer.restored? = none) : next = session := by
  have effect := session.effect_perform (.rollback name steps)
  rw [performed] at effect
  cases effect with
  | idle => rfl
  | restore _ _ _ _ _ found =>
      rw [unrestored] at found
      cases found

end Watch

/-! ## A file that someone else changes -/

/-- A commit is recorded in front of those before it if there is room for it. -/
theorem entriesOf_record_of_room (history : History) {key : String}
    (room : ∀ most ∈ history.capacity.bound, (history.entriesOf key).length + 1 ≤ most)
    (now : Binary64) (before after : List Char) (edit : Option Edit) :
    (history.record now key before after edit).entriesOf key =
      .ofTexts now before after edit :: history.entriesOf key :=
  (History.entriesOf_record_self ..).trans (History.Capacity.Holds.keep_eq room)

/-- The first two commits are recorded one in front of the other if there is room for both. -/
theorem entriesOf_record_two {capacity : History.Capacity}
    (room : ∀ most ∈ capacity.bound, 2 ≤ most) (now : Binary64) (key : String)
    (before after put current : List Char) (edit later : Option Edit) :
    (((History.empty capacity).record now key before after edit).record now key put current
      later).entriesOf key = [.ofTexts now put current later, .ofTexts now before after edit] := by
  have first : ((History.empty capacity).record now key before after edit).entriesOf key =
      [.ofTexts now before after edit] :=
    entriesOf_record_of_room (.empty capacity)
      (fun most bounded => Nat.le_of_succ_le (room most bounded)) ..
  rw [entriesOf_record_of_room _ (by rwa [first]), first]

/-- Taking back two commits: the newer recipe gives a text, and the older one is applied to it. -/
theorem perform_rollback_two {session : Session} {name : String} {path : Path}
    {current between : List Char} {newer older : History.Entry} {rest : List History.Entry}
    (leads : session.gate.workspace.Leads name path)
    (readable : session.gate.workspace.read session.disk name = .ok current)
    (head : session.gate.history.head? (session.gate.workspace.keyAt path) =
      some (.str (String.ofList current)))
    (entries : session.gate.history.entriesOf (session.gate.workspace.keyAt path) =
      newer :: older :: rest)
    (undone : newer.undo current = .ok between) :
    (session.perform (.rollback name 2)).1 =
      match older.undo between with
      | .error fault => .stopped (.history (.recipe fault))
      | .ok text =>
          match (session.gate.workspace.write session.disk name text).2 with
          | .error cause => .undone (.error (.unwritable cause))
          | .ok () => .undone (.ok ⟨name, .int 2, text, rest.length⟩) := by
  have walked : History.undoAll current ((newer :: older :: rest).take (2 : Int).toNat) =
      older.undo between := by
    change History.undoAll current [newer, older] = _
    simp only [History.undoAll, undone, bind, Except.bind]
    cases older.undo between <;> rfl
  have unchanged : ∀ found ∈ session.gate.history.head? (session.gate.workspace.keyAt path),
      found = .str (String.ofList current) := by
    intro found member
    rw [head] at member
    exact (Option.some.inj member).symm
  have enough : ¬ (((newer :: older :: rest).length : ℕ) : Int) < 2 := by
    simp only [List.length_cons]
    omega
  rw [perform_rollback_eq leads readable unchanged, entries, if_neg (by decide), if_neg enough,
    walked]
  cases older.undo between with
  | error fault => rfl
  | ok text =>
      simp only
      rcases session.gate.workspace.write session.disk name text with ⟨disk, _ | _⟩ <;> rfl

namespace Watch

/-- If someone else changes a file between two commits, taking both back applies the recipe
of the first to the text that was put there. -/
theorem answer_of_interruption {gate : Gate} {disk foreign first last : Disk}
    {name : String} {path : Path} {edit later : Edit} {mode : Mode}
    {before after put current : List Char} (now : Binary64)
    (leads : gate.workspace.Leads name path) (wet : mode.dryRun = false)
    (room : ∀ most ∈ gate.history.capacity.bound, 2 ≤ most)
    (committed : CanCommit gate.workspace gate.policy disk name edit before after first)
    (again : CanCommit gate.workspace gate.policy foreign name later put current last)
    (readable : gate.workspace.read last name = .ok current) :
    let watch := (((start gate disk).serve (.apply now name edit mode)).step
      (.outside foreign)).serve (.apply now name later mode)
    (watch.pasts path).commits = [⟨put, current⟩, ⟨before, after⟩] ∧
      (watch.session.perform (.rollback name 2)).1 =
        match (History.Entry.ofTexts now before after (some edit)).undo put with
        | .error fault => .stopped (.history (.recipe fault))
        | .ok text =>
            match (gate.workspace.write last name text).2 with
            | .error cause => .undone (.error (.unwritable cause))
            | .ok () => .undone (.ok ⟨name, .int 2, text, 0⟩) := by
  have served : (start gate disk).serve (.apply now name edit mode) = _ :=
    serve_of_canCommit committed leads wet now
  -- Stated for whatever the first commit has left, so that the equation stays small.
  have servedAgain := fun history between past =>
    @serve_of_canCommit (((start gate disk).moveTo history between path past).step
      (.outside foreign)) _ _ _ _ _ _ _ again leads wet now
  simp only [served, servedAgain]
  refine ⟨by simp [moveTo, step, Past.commit, start], ?_⟩
  have entries := entriesOf_record_two room now (gate.workspace.keyAt path) before after put current
    (some edit) (some later)
  exact Eq.trans (perform_rollback_two leads readable (History.head?_record_self ..) entries
    (Diff.Recipe.restore_ofTexts put current)) rfl

/-- If someone else changes a file before two commits, taking these back gives the text that was put
there. -/
theorem answer_of_resumption {gate : Gate} {disk foreign first second last : Disk}
    {name : String} {path : Path} {edit later latest : Edit} {mode : Mode}
    {before after put between current : List Char} (now : Binary64)
    (leads : gate.workspace.Leads name path) (wet : mode.dryRun = false)
    (room : ∀ most ∈ gate.history.capacity.bound, 3 ≤ most)
    (committed : CanCommit gate.workspace gate.policy disk name edit before after first)
    (again : CanCommit gate.workspace gate.policy foreign name later put between second)
    (further : CanCommit gate.workspace gate.policy second name latest between current last)
    (readable : gate.workspace.read last name = .ok current) :
    let watch := ((((start gate disk).serve (.apply now name edit mode)).step
      (.outside foreign)).serve (.apply now name later mode)).serve (.apply now name latest mode)
    watch.session.disk = last ∧
      (watch.pasts path).commits = [⟨between, current⟩, ⟨put, between⟩, ⟨before, after⟩] ∧
      (watch.session.perform (.rollback name 2)).1 =
        match (gate.workspace.write last name put).2 with
        | .error cause => .undone (.error (.unwritable cause))
        | .ok () => .undone (.ok ⟨name, .int 2, put, 1⟩) := by
  have served : (start gate disk).serve (.apply now name edit mode) = _ :=
    serve_of_canCommit committed leads wet now
  have servedAgain := fun history between past =>
    @serve_of_canCommit (((start gate disk).moveTo history between path past).step
      (.outside foreign)) _ _ _ _ _ _ _ again leads wet now
  have servedLast := fun history between past newer other =>
    @serve_of_canCommit ((((start gate disk).moveTo history between path past).step
      (.outside foreign)).moveTo newer second path other) _ _ _ _ _ _ _ further leads wet now
  simp only [served, servedAgain, servedLast]
  refine ⟨rfl, by simp [moveTo, step, Past.commit, start], ?_⟩
  have older := entriesOf_record_two (fun most bounded => Nat.le_of_succ_le (room most bounded)) now
    (gate.workspace.keyAt path) before after put between (some edit) (some later)
  have entries := entriesOf_record_of_room _ (by rwa [older]) now between current (some latest)
  rw [older] at entries
  have undone : (History.Entry.ofTexts now put between (some later)).undo between = .ok put :=
    Diff.Recipe.restore_ofTexts put between
  refine Eq.trans (perform_rollback_two leads readable (History.head?_record_self ..) entries
    (Diff.Recipe.restore_ofTexts between current)) ?_
  rw [undone]
  rfl

end Watch

namespace Sample

/-- A gate that gives no advice. -/
def gate : Gate where
  workspace := .ofPath ["w"]
  settings := .standard
  policy := ⟨false, none⟩
  history := .ofSettings .standard

/-- A disk with one file in the workspace. -/
def disk (text : String) : Disk :=
  ⟨[(["w"], .directory), (["w", "main.lua"], .file (Utf8.encode text.toList))]⟩

/-- Replaces lines of the file. -/
def replace (first last : Int) (text : String) : Edit :=
  ⟨.replace, first, .int last, .str text⟩

/-- Edits the file. -/
def apply (edit : Edit) : Request :=
  .apply (.finite false 0 0) "main.lua" edit {}

/-- The file is edited, changed by someone else, and edited again. -/
def interrupted (text : String) (edit : Edit) (put : String) (later : Edit) : Watch :=
  (Watch.start gate (disk text)).run
    [.request (apply edit), .outside (disk put), .request (apply later)]

theorem leads_main : gate.workspace.Leads "main.lua" ["w", "main.lua"] :=
  eq_ok_of_toOption (by decide +kernel)

theorem canCommit_first : CanCommit gate.workspace gate.policy (disk "a = 1\n") "main.lua"
    (replace 1 1 "b = 2") "a = 1\n".toList "b = 2\n".toList
    (gate.workspace.write (disk "a = 1\n") "main.lua" "b = 2\n".toList).1 :=
  canCommit_of_toOption (by decide +kernel)

/-- A file of one line gets another one, and someone else puts two lines in its place. -/
def mixed : Watch :=
  interrupted "a = 1\n" (replace 1 1 "b = 2") "x = 1\ny = 2\n" (replace 2 2 "z = 3")

/-- A file of two lines gets two others, and someone else puts one line in their place. -/
def shortened : Watch :=
  interrupted "a = 1\nb = 2\n" (replace 1 2 "c = 3\nd = 4") "x = 1\n" (replace 1 1 "y = 2")

/-- A file is edited, changed by someone else, and edited twice. -/
def resuming : List Event :=
  [.request (apply (replace 1 1 "b = 2")), .outside (disk "x = 1\ny = 2\n"),
    .request (apply (replace 2 2 "z = 3")), .request (apply (replace 1 1 "w = 4"))]

/-- What comes of that. -/
def resumed : Watch :=
  (Watch.start gate (disk "a = 1\n")).run resuming

/-- The disk after the first edit since the change by someone else. -/
def once : Disk :=
  (gate.workspace.write (disk "x = 1\ny = 2\n") "main.lua" "x = 1\nz = 3\n".toList).1

/-- The disk after the second one. -/
def twice : Disk :=
  (gate.workspace.write once "main.lua" "w = 4\nz = 3\n".toList).1

theorem canCommit_second : CanCommit gate.workspace gate.policy (disk "x = 1\ny = 2\n") "main.lua"
    (replace 2 2 "z = 3") "x = 1\ny = 2\n".toList "x = 1\nz = 3\n".toList once :=
  canCommit_of_toOption (by decide +kernel)

theorem canCommit_third : CanCommit gate.workspace gate.policy once "main.lua"
    (replace 1 1 "w = 4") "x = 1\nz = 3\n".toList "w = 4\nz = 3\n".toList twice :=
  canCommit_of_toOption (by decide +kernel)

theorem read_twice : gate.workspace.read twice "main.lua" = .ok "w = 4\nz = 3\n".toList :=
  eq_ok_of_toOption (by decide +kernel)

theorem write_twice :
    (gate.workspace.write twice "main.lua" "x = 1\ny = 2\n".toList).2 = .ok () :=
  eq_ok_of_toOption (by decide +kernel)

end Sample

/-! ## What rollbacks restore -/

namespace Watch

/-- **What rollbacks restore.** After every run of requests and changes by others: if the
commits to be taken back follow each other, a rollback gets an answer; one that is carried
out writes a text to the file, which is then the text that the file held right before the
earliest of these commits; and one that is not carried out changes nothing. -/
theorem rollback_restores_of_linked (gate : Gate) (disk : Disk) (events : List Event)
    (name : String) (steps : Int) :
    ((Route.ofText name).isNameable →
      (∀ path current, gate.workspace.Leads name path →
        gate.workspace.read ((start gate disk).run events).session.disk name = .ok current →
        Linked current ((((start gate disk).run events).pasts path).commits.take steps.toNat)) →
      ∃ outcome next, ((start gate disk).run events).session.perform (.rollback name steps) =
        (.undone outcome, next)) ∧
    (∀ undone next, ((start gate disk).run events).session.perform (.rollback name steps) =
        (.undone (.ok undone), next) →
      ∃ path current, gate.workspace.Leads name path ∧
        gate.workspace.read ((start gate disk).run events).session.disk name = .ok current ∧
        next.disk.item? path = some (.file (Utf8.encode undone.content)) ∧
        (Linked current ((((start gate disk).run events).pasts path).commits.take steps.toNat) →
          ∃ commit,
            (((start gate disk).run events).pasts path).commits[steps.toNat - 1]? = some commit ∧
              undone.content = commit.before)) ∧
    ∀ answer next, ((start gate disk).run events).session.perform (.rollback name steps) =
        (answer, next) →
      answer.restored? = none → next = ((start gate disk).run events).session := by
  have recorded := (recorded_start gate disk).run events
  have workspace : ((start gate disk).run events).session.gate.workspace = gate.workspace :=
    (sameRules_run (start gate disk) events).workspace
  rw [← workspace]
  exact ⟨fun nameable linked => recorded.exists_undone nameable linked,
    fun undone next performed => recorded.of_undone performed,
    fun answer next performed unrestored => eq_of_unrestored performed unrestored⟩

/-- Someone else changed a file between commits. The two commits since then follow each other, if
not the one before, and are taken back to the text that was put there. -/
theorem rollback_restores_of_linked_resumed :
    Linked "w = 4\nz = 3\n".toList
        ((Sample.resumed.pasts ["w", "main.lua"]).commits.take (2 : Int).toNat) ∧
      ¬ Linked "w = 4\nz = 3\n".toList (Sample.resumed.pasts ["w", "main.lua"]).commits ∧
      ∃ undone next, Sample.resumed.session.perform (.rollback "main.lua" 2) =
        (.undone (.ok undone), next) ∧ undone.content = "x = 1\ny = 2\n".toList := by
  obtain ⟨disk, commits, answered⟩ : Sample.resumed.session.disk = Sample.twice ∧
      (Sample.resumed.pasts ["w", "main.lua"]).commits = _ ∧
      (Sample.resumed.session.perform (.rollback "main.lua" 2)).1 = _ :=
    answer_of_resumption (.finite false 0 0) Sample.leads_main
      (rfl : ({} : Mode).dryRun = false) (by decide) Sample.canCommit_first Sample.canCommit_second
      Sample.canCommit_third Sample.read_twice
  simp only [Sample.write_twice] at answered
  have linked : Linked "w = 4\nz = 3\n".toList
      ((Sample.resumed.pasts ["w", "main.lua"]).commits.take (2 : Int).toNat) := by
    rw [commits]
    exact ⟨rfl, rfl, trivial⟩
  obtain ⟨undone, next, performed⟩ : ∃ undone next,
      Sample.resumed.session.perform (.rollback "main.lua" 2) = (.undone (.ok undone), next) :=
    ⟨_, _, Prod.ext answered rfl⟩
  refine ⟨linked, ?_, undone, next, performed, ?_⟩
  · rw [commits]
    rintro ⟨-, -, broken, -⟩
    revert broken
    decide
  · obtain ⟨path, current, leads, readable, -, restores⟩ :=
      (rollback_restores_of_linked Sample.gate (Sample.disk "a = 1\n") Sample.resuming "main.lua"
        2).2.1 _ _ performed
    obtain rfl : ["w", "main.lua"] = path := Except.ok.inj (Sample.leads_main.symm.trans leads)
    have read : Sample.gate.workspace.read Sample.resumed.session.disk "main.lua" = .ok current :=
      readable
    rw [disk, Sample.read_twice] at read
    obtain rfl := Except.ok.inj read
    obtain ⟨commit, found, content⟩ := restores linked
    have earliest : (Sample.resumed.pasts ["w", "main.lua"]).commits[(2 : Int).toNat - 1]? =
        some commit := found
    rw [commits] at earliest
    cases earliest
    exact content

end Watch

/-- **Rollbacks over changes by others.** If someone else changes a file between two commits,
taking both back may write a text that the file never held, or get no answer. -/
theorem rollback_over_outside_change :
    ((Sample.mixed.pasts ["w", "main.lua"]).commits[1]?.map Commit.before =
        some "a = 1\n".toList ∧
      (Sample.mixed.session.perform (.rollback "main.lua" 2)).1.restored? =
        some "a = 1\ny = 2\n".toList) ∧
    (Sample.shortened.session.perform (.rollback "main.lua" 2)).1 =
      .stopped (.history (.recipe .noSuchLine)) := by
  refine ⟨?_, ?_⟩
  · have again : CanCommit Sample.gate.workspace Sample.gate.policy
        (Sample.disk "x = 1\ny = 2\n") "main.lua" (Sample.replace 2 2 "z = 3")
        "x = 1\ny = 2\n".toList "x = 1\nz = 3\n".toList _ :=
      canCommit_of_toOption (by decide +kernel)
    have misapplied : (History.Entry.ofTexts (.finite false 0 0) "a = 1\n".toList
        "b = 2\n".toList (some (Sample.replace 1 1 "b = 2"))).undo "x = 1\ny = 2\n".toList =
          .ok "a = 1\ny = 2\n".toList := by
      rw [History.Entry.undo, History.Entry.ofTexts,
        Diff.Recipe.ofTexts_of_disjoint (by decide +kernel)]
      exact eq_ok_of_toOption (by decide +kernel)
    have wrote : (Sample.gate.workspace.write (Sample.gate.workspace.write
        (Sample.disk "x = 1\ny = 2\n") "main.lua" "x = 1\nz = 3\n".toList).1 "main.lua"
          "a = 1\ny = 2\n".toList).2 = .ok () :=
      eq_ok_of_toOption (by decide +kernel)
    obtain ⟨commits, answered⟩ := Watch.answer_of_interruption (.finite false 0 0)
      Sample.leads_main (rfl : ({} : Mode).dryRun = false) (by decide) Sample.canCommit_first again
      (eq_ok_of_toOption (by decide +kernel))
    simp only [misapplied, wrote] at answered
    exact ⟨congrArg (·[1]?.map Commit.before) commits, congrArg Answer.restored? answered⟩
  · have committed : CanCommit Sample.gate.workspace Sample.gate.policy
        (Sample.disk "a = 1\nb = 2\n") "main.lua" (Sample.replace 1 2 "c = 3\nd = 4")
        "a = 1\nb = 2\n".toList "c = 3\nd = 4\n".toList _ :=
      canCommit_of_toOption (by decide +kernel)
    have again : CanCommit Sample.gate.workspace Sample.gate.policy
        (Sample.disk "x = 1\n") "main.lua" (Sample.replace 1 1 "y = 2")
        "x = 1\n".toList "y = 2\n".toList _ :=
      canCommit_of_toOption (by decide +kernel)
    have misfit : (History.Entry.ofTexts (.finite false 0 0) "a = 1\nb = 2\n".toList
        "c = 3\nd = 4\n".toList (some (Sample.replace 1 2 "c = 3\nd = 4"))).undo
          "x = 1\n".toList = .error .noSuchLine := by
      rw [History.Entry.undo, History.Entry.ofTexts,
        Diff.Recipe.ofTexts_of_disjoint (by decide +kernel)]
      rfl
    obtain ⟨-, answered⟩ := Watch.answer_of_interruption (.finite false 0 0)
      Sample.leads_main (rfl : ({} : Mode).dryRun = false) (by decide) committed again
      (eq_ok_of_toOption (by decide +kernel))
    rw [misfit] at answered
    exact answered

end EditGate.Gate

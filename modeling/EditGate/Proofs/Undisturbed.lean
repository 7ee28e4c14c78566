import EditGate.Proofs.Pasts
import Mathlib

/-!
# Sessions that nobody disturbs

If nobody else changes the disk, and it gives back what is written to it, then the text of
every file is the head of its history, and its commits led to that text one after the other.
So the latest commits can always be taken back, as many as there was room for, and this
gives the texts that were there before them. A file that is valid in the beginning therefore
stays valid: what a rollback writes was in the file before.
-/

namespace EditGate.Gate

/-! ## Disks that give back what is written -/

/-- Whether the file of a request reads as the text that was written, if one was. -/
def Session.Returns (session : Session) (request : Request) (written : Option (List Char)) :
    Prop :=
  ∀ text ∈ written, session.gate.workspace.read session.disk request.name = .ok text

/-- Whether each of the requests in turn leaves its file with the text that it writes. -/
def Session.ReadsBack (session : Session) : List Request → Prop
  | [] => True
  | request :: rest =>
      (session.perform request).2.Returns request (session.perform request).1.written? ∧
        ReadsBack (session.perform request).2 rest

/-- An edit that can be committed reads back if the text that it makes does. -/
theorem CanCommit.readsBack {session : Session} {name : String} {path : Path} {edit : Edit}
    {before after : List Char} {disk : Disk} {mode : Mode}
    (possible : CanCommit session.gate.workspace session.gate.policy session.disk name edit
      before after disk)
    (leads : session.gate.workspace.Leads name path) (wet : mode.dryRun = false) (now : Binary64)
    (back : session.gate.workspace.read disk name = .ok after) :
    session.ReadsBack [.apply now name edit mode] := by
  refine ⟨?_, trivial⟩
  rw [Session.perform, possible.apply_eq leads wet now]
  intro text written
  cases written
  exact back

namespace Watch

/-- Serves requests one after the other, while nothing else happens. -/
def serveAll (watch : Watch) (requests : List Request) : Watch :=
  watch.run (requests.map .request)

/-- What serving one request keeps holds after all of them. -/
theorem serveAll_keeps {Holds : Watch → Prop}
    (kept : ∀ {watch next : Watch} {request : Request} {written : Option (List Char)},
      Holds watch → watch.Serves request written next → next.session.Returns request written →
        Holds next)
    {watch : Watch} (holds : Holds watch) {requests : List Request}
    (back : watch.session.ReadsBack requests) : Holds (watch.serveAll requests) := by
  induction requests generalizing watch with
  | nil => exact holds
  | cons request rest ih =>
      exact @ih (watch.serve request) (kept holds (watch.serves request) back.1) back.2

theorem sameRules_serveAll (gate : Gate) (disk : Disk) (requests : List Request) :
    SameRules gate ((start gate disk).serveAll requests).session.gate := by
  have rules := sameRules_run (start gate disk) (requests.map .request)
  exact ⟨rules.workspace, rules.policy, rules.capacity⟩

/-- Requests read back if the earlier ones do, and after them the later ones. -/
theorem readsBack_append {watch : Watch} {requests later : List Request} :
    watch.session.ReadsBack (requests ++ later) ↔
      watch.session.ReadsBack requests ∧ (watch.serveAll requests).session.ReadsBack later := by
  induction requests generalizing watch with
  | nil => exact ⟨fun back => ⟨trivial, back⟩, And.right⟩
  | cons request rest ih =>
      have others := @ih (watch.serve request)
      constructor
      · intro back
        obtain ⟨reads, after⟩ := others.1 back.2
        exact ⟨⟨back.1, reads⟩, after⟩
      · intro back
        exact ⟨back.1.1, others.2 ⟨back.1.2, back.2⟩⟩

end Watch

/-! ## Texts, heads and commits agree -/

/-- Whether a past and a history account for the text of a file: it is the head, if there is
one, and the commits led to it. -/
structure Past.Explains (past : Past) (history : History) (key : String) (text : List Char) :
    Prop where
  head : ∀ head ∈ history.head? key, head = .str (String.ofList text)
  linked : Linked text past.commits

namespace Watch

/-- Whether the text of every file is accounted for. -/
def Settled (watch : Watch) : Prop :=
  ∀ name path text, watch.session.gate.workspace.Leads name path →
    watch.session.gate.workspace.read watch.session.disk name = .ok text →
    (watch.pasts path).Explains watch.session.gate.history
      (watch.session.gate.workspace.keyAt path) text

theorem settled_start (gate : Gate) (disk : Disk) : (start gate disk).Settled := by
  intro name path text leads readable
  constructor
  · intro head found
    cases found
  · trivial

variable {watch next : Watch} {request : Request} {written : Option (List Char)}

/-- A file that reads as what was written is settled, and the others have stayed the same. -/
theorem Settled.moveTo (settled : watch.Settled) {name : String} {path : Path}
    {text : List Char} {history : History} {disk : Disk} {past : Past}
    (leads : watch.session.gate.workspace.Leads name path)
    (wrote : watch.session.gate.workspace.write watch.session.disk name text = (disk, .ok ()))
    (back : watch.session.gate.workspace.read disk name = .ok text)
    (changed : past.Explains history (watch.session.gate.workspace.keyAt path) text)
    (others : ∀ key, key ≠ watch.session.gate.workspace.keyAt path →
      History.SameFile key watch.session.gate.history history) :
    (watch.moveTo history disk path past).Settled := by
  intro other place found also readable
  rcases leads.read_of_write wrote back also readable with ⟨rfl, rfl⟩ | ⟨different, before⟩
  · rw [pasts_moveTo_self]
    exact changed
  · have untouched := others _ (keyAt_ne leads also different)
    have explained := settled other place found also before
    rw [pasts_moveTo_of_ne watch history disk different]
    exact ⟨fun head found => explained.head head (untouched.1 ▸ found), explained.linked⟩

/-- A restored text is accounted for by the commits before those that were taken back. -/
theorem Recorded.exists_restored (recorded : watch.Recorded) (settled : watch.Settled)
    {name : String} {path : Path} {steps : Int} {current restored : List Char}
    {history : History} (leads : watch.session.gate.workspace.Leads name path)
    (readable : watch.session.gate.workspace.read watch.session.disk name = .ok current)
    (taken : watch.session.gate.history.rollback (watch.session.gate.workspace.keyAt path)
      (.int steps) (.str (String.ofList current)) = .ok (restored, history)) :
    ∃ commit ∈ (watch.pasts path).commits, restored = commit.before ∧
      Linked restored ((watch.pasts path).undo steps.toNat).commits := by
  obtain ⟨positive, enough, undoes, -⟩ := History.of_rollback_eq_ok taken
  have linked := (settled name path current leads readable).linked
  obtain ⟨commit, found, also⟩ := (recorded name path leads).undoAll_take (by omega) (by omega)
    (linked.take steps.toNat)
  rw [undoes] at also
  have equal : restored = commit.before := Except.ok.inj also
  refine ⟨commit, List.mem_of_getElem? found, equal, ?_⟩
  have rest := linked.drop found
  rw [Nat.sub_add_cancel (by omega)] at rest
  exact equal ▸ rest

theorem Settled.serve (settled : watch.Settled) (recorded : watch.Recorded)
    (serves : watch.Serves request written next)
    (back : next.session.Returns request written) : next.Settled := by
  cases serves with
  | idle => exact settled
  | @commit now name edit mode path before after disk isApply leads readable _ wrote =>
      subst isApply
      apply settled.moveTo leads wrote (back after rfl)
      · constructor
        · intro head found
          rw [History.head?_record_self] at found
          exact (Option.some.inj found).symm
        · exact ⟨rfl, (settled name path before leads readable).linked⟩
      · intro key different
        exact History.sameFile_record different _ now before after _
  | @restore name steps path current restored history disk isRollback leads readable taken wrote =>
      subst isRollback
      -- The restored text stood before a commit, and the commits before that one led to it.
      obtain ⟨-, -, -, linked⟩ := recorded.exists_restored settled leads readable taken
      obtain ⟨-, -, -, rfl⟩ := History.of_rollback_eq_ok taken
      apply settled.moveTo leads wrote (back restored rfl)
      · constructor
        · intro head found
          rw [History.head?_drop_self] at found
          exact (Option.some.inj found).symm
        · exact linked
      · intro key different
        exact History.sameFile_drop different _ steps.toNat restored

/-- No file has more commits that can be taken back than there is room for. -/
def Fits (watch : Watch) : Prop :=
  ∀ path, ∀ most ∈ watch.session.gate.history.capacity.bound, (watch.pasts path).kept ≤ most

theorem fits_start (gate : Gate) (disk : Disk) : (start gate disk).Fits :=
  fun _ _ _ => Nat.zero_le _

theorem Fits.serve (fits : watch.Fits) (serves : watch.Serves request written next) :
    next.Fits := by
  cases serves with
  | idle => exact fits
  | @commit now name edit mode path before after disk =>
      intro place most bounded
      by_cases same : place = path
      · have room : watch.session.gate.history.capacity.bound = some most := bounded
        simp [same, Past.commit, room]
      · rw [pasts_moveTo_of_ne _ _ _ same]
        exact fits place most bounded
  | @restore name steps path current restored history disk _ _ _ taken =>
      obtain ⟨-, -, -, rfl⟩ := History.of_rollback_eq_ok taken
      intro place most bounded
      have before := fits place most bounded
      by_cases same : place = path
      · subst same
        rw [pasts_moveTo_self]
        exact (Nat.sub_le ..).trans before
      · rw [pasts_moveTo_of_ne _ _ _ same]
        exact before

/-- What holds as long as nobody disturbs a session. -/
structure Undisturbed (watch : Watch) : Prop where
  recorded : watch.Recorded
  settled : watch.Settled
  fits : watch.Fits

theorem undisturbed_start (gate : Gate) (disk : Disk) : (start gate disk).Undisturbed :=
  ⟨recorded_start gate disk, settled_start gate disk, fits_start gate disk⟩

theorem Undisturbed.serve (undisturbed : watch.Undisturbed)
    (serves : watch.Serves request written next)
    (back : next.session.Returns request written) : next.Undisturbed where
  recorded := undisturbed.recorded.serve serves
  settled := undisturbed.settled.serve undisturbed.recorded serves back
  fits := undisturbed.fits.serve serves

theorem undisturbed_serveAll (gate : Gate) (disk : Disk) {requests : List Request}
    (back : (start gate disk).session.ReadsBack requests) :
    ((start gate disk).serveAll requests).Undisturbed :=
  serveAll_keeps Undisturbed.serve (undisturbed_start gate disk) back

/-! ## Rollbacks are available and exact -/

section Rollback

variable {name : String} {path : Path} {current : List Char} {steps : Int}

/-- More commits than can be taken back are not. -/
theorem Undisturbed.exists_insufficient (undisturbed : watch.Undisturbed)
    (leads : watch.session.gate.workspace.Leads name path)
    (readable : watch.session.gate.workspace.read watch.session.disk name = .ok current)
    (few : steps < 1 ∨ (watch.pasts path).kept < steps) :
    ∃ cause, watch.session.perform (.rollback name steps) =
      (.undone (.error (.insufficient cause)), watch.session) := by
  have explained := undisturbed.settled name path current leads readable
  have count := (undisturbed.recorded name path leads).length_eq
  rw [perform_rollback_eq leads readable explained.head, count]
  by_cases tooFew : steps < 1
  · exact ⟨_, if_pos tooFew⟩
  · have tooMany := few.resolve_left tooFew
    rw [if_neg tooFew, if_pos tooMany]
    exact ⟨_, rfl⟩

/-- Commits that can be taken back are, and what is written is the text before them. -/
theorem Undisturbed.exists_rolledBack (undisturbed : watch.Undisturbed)
    (leads : watch.session.gate.workspace.Leads name path)
    (readable : watch.session.gate.workspace.read watch.session.disk name = .ok current)
    (writable : ∀ text,
      (watch.session.gate.workspace.write watch.session.disk name text).2 = .ok ())
    (positive : 1 ≤ steps) (within : steps ≤ (watch.pasts path).kept) :
    ∃ commit next, (watch.pasts path).commits[steps.toNat - 1]? = some commit ∧
      watch.session.perform (.rollback name steps) =
        (.undone (.ok ⟨name, .int steps, commit.before,
          (watch.pasts path).kept - steps.toNat⟩), next) ∧
      (next.gate.history.entriesOf (watch.session.gate.workspace.keyAt path)).length =
        (watch.pasts path).kept - steps.toNat := by
  have explained := undisturbed.settled name path current leads readable
  have recorded := undisturbed.recorded name path leads
  have count := recorded.length_eq
  have linked := explained.linked.take steps.toNat
  obtain ⟨commit, found, undone⟩ := recorded.undoAll_take (by omega) (by omega) linked
  obtain ⟨disk, wrote⟩ : ∃ disk, watch.session.gate.workspace.write watch.session.disk name
      commit.before = (disk, .ok ()) := ⟨_, Prod.ext rfl (writable commit.before)⟩
  have remaining : ((watch.session.gate.history.entriesOf
      (watch.session.gate.workspace.keyAt path)).drop steps.toNat).length =
        (watch.pasts path).kept - steps.toNat := by
    rw [List.length_drop, count]
  rw [perform_rollback_eq leads readable explained.head, if_neg (by omega), if_neg (by omega),
    undone]
  simp only [wrote, remaining]
  refine ⟨commit, _, found, rfl, ?_⟩
  rw [History.entriesOf_drop_self, remaining]

end Rollback

/-- A rollback reads back if the texts before the commits do. -/
theorem Undisturbed.readsBack_rollback (undisturbed : watch.Undisturbed)
    {name : String} {path : Path} (leads : watch.session.gate.workspace.Leads name path)
    (back : ∀ commit ∈ (watch.pasts path).commits,
      watch.session.gate.workspace.read
        (watch.session.gate.workspace.write watch.session.disk name commit.before).1 name =
          .ok commit.before) (steps : Int) :
    watch.session.ReadsBack [.rollback name steps] := by
  refine ⟨?_, trivial⟩
  have serves := watch.serves (.rollback name steps)
  generalize (watch.session.perform (.rollback name steps)).1.written? = written at serves
  change (watch.serve (.rollback name steps)).session.Returns (.rollback name steps) written
  generalize watch.serve (.rollback name steps) = next at serves
  intro text member
  cases serves with
  | idle => cases member
  | commit isApply => cases isApply
  | @restore _ _ place current restored history disk isRollback also readable taken wrote =>
      cases isRollback
      cases member
      obtain rfl : place = path := Except.ok.inj (also.symm.trans leads)
      obtain ⟨commit, found, equal, -⟩ :=
        undisturbed.recorded.exists_restored undisturbed.settled leads readable taken
      have reads := back commit found
      rw [← equal, wrote] at reads
      exact reads

end Watch

namespace Sample

/-- The only line of the file is replaced. -/
def edited : Watch :=
  (Watch.start gate (disk "a = 1\n")).serveAll [apply (replace 1 1 "b = 2")]

theorem edited_eq : edited = (Watch.start gate (disk "a = 1\n")).moveTo
    ((History.empty gate.history.capacity).record (.finite false 0 0)
      (gate.workspace.keyAt ["w", "main.lua"]) "a = 1\n".toList "b = 2\n".toList
      (some (replace 1 1 "b = 2")))
    (gate.workspace.write (disk "a = 1\n") "main.lua" "b = 2\n".toList).1 ["w", "main.lua"]
    ⟨[⟨"a = 1\n".toList, "b = 2\n".toList⟩], 1⟩ :=
  Watch.serve_of_canCommit canCommit_first leads_main rfl (.finite false 0 0)

theorem read_edited : gate.workspace.read edited.session.disk "main.lua" =
    .ok "b = 2\n".toList := by
  rw [edited_eq]
  exact eq_ok_of_toOption (by decide +kernel)

theorem pasts_edited : edited.pasts ["w", "main.lua"] =
    ⟨[⟨"a = 1\n".toList, "b = 2\n".toList⟩], 1⟩ := by
  rw [edited_eq, Watch.pasts_moveTo_self]

theorem readsBack_edited (steps : Int) :
    (Watch.start gate (disk "a = 1\n")).session.ReadsBack
      ([apply (replace 1 1 "b = 2")] ++ [.rollback "main.lua" steps]) := by
  have first : (Watch.start gate (disk "a = 1\n")).session.ReadsBack
      [apply (replace 1 1 "b = 2")] :=
    canCommit_first.readsBack leads_main rfl (.finite false 0 0)
      (eq_ok_of_toOption (by decide +kernel))
  have undisturbed : edited.Undisturbed := Watch.undisturbed_serveAll _ _ first
  refine Watch.readsBack_append.2 ⟨first, ?_⟩
  change edited.session.ReadsBack [.rollback "main.lua" steps]
  rw [edited_eq] at undisturbed ⊢
  apply undisturbed.readsBack_rollback leads_main
  rw [Watch.pasts_moveTo_self]
  intro commit member
  obtain rfl := List.mem_singleton.1 member
  exact eq_ok_of_toOption (by decide +kernel)

end Sample

namespace Watch

/-- **Rollbacks in sessions that nobody disturbs.** After every run of requests, a rollback of
a file that can be read and written has one of two answers, and never that the file was
changed. -/
theorem rollback_exact_of_undisturbed (gate : Gate) (disk : Disk) (requests : List Request)
    {name : String} {path : Path} {current : List Char} (steps : Int)
    (leads : gate.workspace.Leads name path)
    (back : (start gate disk).session.ReadsBack (requests ++ [.rollback name steps]))
    (readable : gate.workspace.read ((start gate disk).serveAll requests).session.disk name =
      .ok current)
    (writable : ∀ text, (gate.workspace.write
      ((start gate disk).serveAll requests).session.disk name text).2 = .ok ()) :
    let watch := (start gate disk).serveAll requests
    (∀ most ∈ gate.history.capacity.bound, (watch.pasts path).kept ≤ most) ∧
    if steps < 1 ∨ (watch.pasts path).kept < steps then
      ∃ cause, watch.session.perform (.rollback name steps) =
        (.undone (.error (.insufficient cause)), watch.session)
    else ∃ commit next, (watch.pasts path).commits[steps.toNat - 1]? = some commit ∧
      watch.session.perform (.rollback name steps) =
        (.undone (.ok ⟨name, .int steps, commit.before,
          (watch.pasts path).kept - steps.toNat⟩), next) ∧
      (next.gate.history.entriesOf (gate.workspace.keyAt path)).length =
        (watch.pasts path).kept - steps.toNat ∧
      gate.workspace.read next.disk name = .ok commit.before := by
  intro watch
  obtain ⟨before, last⟩ := readsBack_append.1 back
  have undisturbed : watch.Undisturbed := undisturbed_serveAll gate disk before
  have rules : SameRules gate watch.session.gate := sameRules_serveAll gate disk requests
  rw [← rules.workspace] at leads readable writable ⊢
  refine ⟨?_, ?_⟩
  · intro most bounded
    exact undisturbed.fits path most (rules.capacity ▸ bounded)
  split
  next few => exact undisturbed.exists_insufficient leads readable few
  next enough =>
    have positive : 1 ≤ steps := not_lt.1 fun tooFew => enough (.inl tooFew)
    have within : steps ≤ (watch.pasts path).kept := not_lt.1 fun tooMany => enough (.inr tooMany)
    obtain ⟨commit, next, found, performed, remaining⟩ :=
      undisturbed.exists_rolledBack leads readable writable positive within
    refine ⟨commit, next, found, performed, remaining, ?_⟩
    have reads := last.1 commit.before
    have still := (watch.serves (.rollback name steps)).sameRules.workspace
    rw [serve, performed] at still
    rw [performed, still] at reads
    exact reads rfl

theorem rollback_exact_of_undisturbed_edited :
    (start Sample.gate (Sample.disk "a = 1\n")).session.ReadsBack
        ([Sample.apply (Sample.replace 1 1 "b = 2")] ++ [.rollback "main.lua" 1]) ∧
      Sample.gate.workspace.read Sample.edited.session.disk "main.lua" =
        .ok "b = 2\n".toList ∧
      ∃ next, Sample.edited.session.perform (.rollback "main.lua" 1) =
          (.undone (.ok ⟨"main.lua", .int 1, "a = 1\n".toList, 0⟩), next) ∧
        Sample.gate.workspace.read next.disk "main.lua" = .ok "a = 1\n".toList := by
  have writable : ∀ text,
      (Sample.gate.workspace.write Sample.edited.session.disk "main.lua" text).2 = .ok () := by
    intro text
    rw [Workspace.snd_write_eq _ _ _ text [], Sample.edited_eq]
    exact eq_ok_of_toOption (by decide +kernel)
  refine ⟨Sample.readsBack_edited 1, Sample.read_edited, ?_⟩
  obtain ⟨-, answered⟩ := rollback_exact_of_undisturbed Sample.gate (Sample.disk "a = 1\n")
    [Sample.apply (Sample.replace 1 1 "b = 2")] 1 Sample.leads_main (Sample.readsBack_edited 1)
    Sample.read_edited writable
  have past : ((start Sample.gate (Sample.disk "a = 1\n")).serveAll
      [Sample.apply (Sample.replace 1 1 "b = 2")]).pasts ["w", "main.lua"] = _ :=
    Sample.pasts_edited
  rw [past, if_neg (by decide)] at answered
  obtain ⟨commit, next, found, performed, -, reads⟩ := answered
  cases found
  exact ⟨next, performed, reads⟩

variable {watch next : Watch} {request : Request} {written : Option (List Char)}

/-! ## Valid files stay valid -/

/-- Whether a file is valid, and was so before each of its commits. -/
structure ValidAt (watch : Watch) (path : Path) : Prop where
  now : ∀ name text, watch.session.gate.workspace.Leads name path →
    watch.session.gate.workspace.read watch.session.disk name = .ok text →
    (Report.ofText watch.session.gate.policy text).valid
  before : ∀ commit ∈ (watch.pasts path).commits,
    (Report.ofText watch.session.gate.policy commit.before).valid

theorem ValidAt.moveTo {path place : Path} (valid : watch.ValidAt place) {name : String}
    {text : List Char} {history : History} {disk : Disk} {past : Past}
    (leads : watch.session.gate.workspace.Leads name path)
    (wrote : watch.session.gate.workspace.write watch.session.disk name text = (disk, .ok ()))
    (back : watch.session.gate.workspace.read disk name = .ok text)
    (changed : place = path → (Report.ofText watch.session.gate.policy text).valid ∧
      ∀ commit ∈ past.commits, (Report.ofText watch.session.gate.policy commit.before).valid) :
    (watch.moveTo history disk path past).ValidAt place := by
  constructor
  · intro other found also readable
    rcases leads.read_of_write wrote back also readable with ⟨same, rfl⟩ | ⟨-, before⟩
    · exact (changed same).1
    · exact valid.now other found also before
  · by_cases same : place = path
    · subst same
      rw [pasts_moveTo_self]
      exact (changed rfl).2
    · rw [pasts_moveTo_of_ne _ _ _ same]
      exact valid.before

theorem ValidAt.serve {path : Path} (valid : watch.ValidAt path)
    (undisturbed : watch.Undisturbed) (serves : watch.Serves request written next)
    (back : next.session.Returns request written) : next.ValidAt path := by
  cases serves with
  | idle => exact valid
  | @commit now name edit mode place before after disk isApply leads readable accepted wrote =>
      subst isApply
      apply valid.moveTo leads wrote (back after rfl)
      rintro rfl
      refine ⟨accepted, ?_⟩
      intro commit member
      -- What a commit replaces was in the file, so it is among the texts known to be valid.
      rcases List.mem_cons.1 member with rfl | earlier
      · exact valid.now name before leads readable
      · exact valid.before commit earlier
  | @restore name steps place current restored history disk isRollback leads readable taken wrote =>
      subst isRollback
      obtain ⟨commit, member, equal, -⟩ :=
        undisturbed.recorded.exists_restored undisturbed.settled leads readable taken
      -- A restored text is not looked at again: it is valid because it stood in the file before.
      apply valid.moveTo leads wrote (back restored rfl)
      rintro rfl
      refine ⟨equal ▸ valid.before commit member, ?_⟩
      intro earlier kept
      exact valid.before earlier (List.mem_of_mem_drop kept)

theorem ValidAt.serveAll {path : Path} (valid : watch.ValidAt path)
    (undisturbed : watch.Undisturbed) {requests : List Request}
    (back : watch.session.ReadsBack requests) : (watch.serveAll requests).ValidAt path := by
  have kept : ∀ {watch next : Watch} {request : Request} {written : Option (List Char)},
      watch.Undisturbed ∧ watch.ValidAt path → watch.Serves request written next →
        next.session.Returns request written → next.Undisturbed ∧ next.ValidAt path := by
    intro watch next request written holds serves returns
    exact ⟨holds.1.serve serves returns, holds.2.serve holds.1 serves returns⟩
  exact (serveAll_keeps kept ⟨undisturbed, valid⟩ back).2

/-- **Valid files stay valid.** If nobody disturbs a session and a file is valid in the
beginning, then it is valid after each of the requests. Whatever the session, a text that is
committed is valid. -/
theorem valid_of_undisturbed (gate : Gate) (disk : Disk) (requests : List Request)
    (name : String) (back : (start gate disk).session.ReadsBack requests)
    (valid : ∀ text, gate.workspace.read disk name = .ok text →
      (Report.ofText gate.policy text).valid) :
    (∀ served, served <+: requests → ∀ text,
      gate.workspace.read ((start gate disk).serveAll served).session.disk name = .ok text →
        (Report.ofText gate.policy text).valid) ∧
    ∀ (session : Session) (request : Request) (text : List Char),
      (session.perform request).1.committed? = some text →
        (Report.ofText session.gate.policy text).valid := by
  refine ⟨?_, ?_⟩
  · rintro served ⟨later, rfl⟩ text readable
    obtain ⟨path, -, leads, -⟩ := Workspace.read_eq_ok_iff.1 readable
    have atStart : (start gate disk).ValidAt path := by
      constructor
      · intro other found also readable
        exact valid found ((leads.read_eq also).trans readable)
      · intro commit member
        cases member
    have rules := sameRules_serveAll gate disk served
    have validNow := atStart.serveAll (undisturbed_start gate disk) (readsBack_append.1 back).1
    rw [← rules.workspace] at leads readable
    rw [← rules.policy]
    exact validNow.now name text leads readable
  · intro session request text committed
    have effect := session.effect_perform request
    generalize session.perform request = outcome at effect committed
    obtain ⟨answer, next⟩ := outcome
    cases effect with
    | idle uncommitted =>
        rw [uncommitted] at committed
        cases committed
    | commit _ _ accepted _ found =>
        rw [found] at committed
        cases committed
        exact accepted
    | restore _ _ _ _ uncommitted =>
        rw [uncommitted] at committed
        cases committed

theorem valid_of_undisturbed_edited :
    (Report.ofText Sample.gate.policy "a = 1\n".toList).valid ∧
      ∀ text, Sample.gate.workspace.read Sample.edited.session.disk "main.lua" = .ok text →
        (Report.ofText Sample.gate.policy text).valid := by
  have valid : (Report.ofText Sample.gate.policy "a = 1\n".toList).valid := by decide +kernel
  have readable : Sample.gate.workspace.read (Sample.disk "a = 1\n") "main.lua" =
      .ok "a = 1\n".toList := Sample.canCommit_first.readable
  refine ⟨valid, ?_⟩
  apply (valid_of_undisturbed Sample.gate (Sample.disk "a = 1\n") _ "main.lua"
    (Sample.readsBack_edited 1) ?_).1 _ (List.prefix_append _ _)
  intro text found
  obtain rfl : "a = 1\n".toList = text := Except.ok.inj (readable.symm.trans found)
  exact valid

end Watch

end EditGate.Gate

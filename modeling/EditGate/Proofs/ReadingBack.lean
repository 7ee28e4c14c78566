import EditGate.Proofs.Mirrors
import EditGate.Proofs.Octets
import EditGate.Proofs.Undisturbed
import Mathlib

/-!
# Reading back what was written

A file that could be written can be read, and has the text that was written but for one leading
byte order mark: writing keeps it, and reading takes it for a remark on the octets. All other texts
come back as they are.

The head of a file is the text as it was written. So right after a text with a leading mark was
written, the file counts as changed by someone else, and a rollback is refused.
-/

namespace EditGate

namespace Utf8

/-! ## Byte order marks -/

/-- The character that the byte order mark is written as. -/
def markChar : Char := '\ufeff'

/-- Whether a text starts with a byte order mark. -/
def IsMarked (text : List Char) : Prop :=
  text.head? = some markChar

instance (text : List Char) : Decidable (IsMarked text) :=
  inferInstanceAs (Decidable (text.head? = some markChar))

/-- A text without one leading byte order mark. -/
def unmarked (text : List Char) : List Char :=
  if IsMarked text then text.tail else text

theorem unmarked_eq_self_iff {text : List Char} : unmarked text = text ↔ ¬ IsMarked text := by
  rw [unmarked]
  split
  next marked =>
    obtain ⟨rest, rfl⟩ := List.head?_eq_some_iff.1 marked
    simp [marked]
  next plain => simp [plain]

theorem encodeChar_markChar : encodeChar markChar = byteOrderMark :=
  rfl

theorem encode_cons (char : Char) (text : List Char) :
    encode (char :: text) = encodeChar char ++ encode text :=
  List.flatMap_cons

theorem encode_eq_nil_iff {text : List Char} : encode text = [] ↔ text = [] :=
  ⟨fun empty => encode_injective (empty.trans rfl), fun empty => by rw [empty]; rfl⟩

/-- The octets of a text start with those of the mark exactly if the text starts with it. -/
theorem byteOrderMark_isPrefix_iff {text : List Char} :
    byteOrderMark <+: encode text ↔ IsMarked text := by
  constructor
  · rintro ⟨octets, starts⟩
    have decoded := decode_encode text
    rw [← starts, ← encodeChar_markChar, decode, decodeFrom_encodeChar_append] at decoded
    cases rest : decodeFrom (0 + (encodeChar markChar).length) octets with
    | error fault =>
        rw [rest] at decoded
        cases decoded
    | ok found =>
        rw [rest] at decoded
        cases decoded
        rfl
  · intro marked
    obtain ⟨rest, rfl⟩ := List.head?_eq_some_iff.1 marked
    rw [encode_cons, encodeChar_markChar]
    exact List.prefix_append _ _

/-- The mark is one character, so that it cannot be broken off. -/
theorem eq_of_encode_isPrefix {text : List Char} (within : encode text <+: byteOrderMark) :
    text = [] ∨ text = [markChar] := by
  have decoded := decode_encode text
  obtain short | short | short | short : encode text = [] ∨ encode text = [0xef] ∨
      encode text = [0xef, 0xbb] ∨ encode text = byteOrderMark := by
    have among := (List.mem_inits _ _).2 within
    simpa [byteOrderMark] using among
  · exact .inl (encode_eq_nil_iff.1 short)
  · have broken : (decode [0xef]).toOption = none := by decide +kernel
    rw [← short, decoded] at broken
    cases broken
  · have broken : (decode [0xef, 0xbb]).toOption = none := by decide +kernel
    rw [← short, decoded] at broken
    cases broken
  · exact .inr (encode_injective short)

/-- What is read of a text that was written. -/
theorem decodeUnmarked_encode (text : List Char) :
    decodeUnmarked (encode text) = .ok (unmarked text) := by
  simp only [decodeUnmarked, List.isPrefixOf_iff_prefix, byteOrderMark_isPrefix_iff]
  split
  next within =>
    rcases eq_of_encode_isPrefix within with rfl | rfl <;> rfl
  next =>
    rw [unmarked]
    split
    next marked =>
      obtain ⟨rest, rfl⟩ := List.head?_eq_some_iff.1 marked
      rw [encode_cons, encodeChar_markChar]
      exact decode_encode rest
    next => exact decode_encode text

end Utf8

/-! ## Finding what was written -/

namespace Path

theorem eq_parent_concat {path : Path} (nonempty : path ≠ []) :
    path = path.parent ++ [path.name] := by
  rw [parent, name, List.getLast?_eq_some_getLast nonempty, Option.getD_some,
    List.dropLast_append_getLast nonempty]

theorem text_extendName {path : Path} (nonempty : path ≠ []) (ending : String) :
    (path.extendName ending).text = path.text ++ ending := by
  have parts := eq_parent_concat nonempty
  rw [extendName, text]
  conv_rhs => rw [parts, text]
  by_cases top : path.parent = []
  · simp [top, String.append_assoc]
  · rw [String.intercalate_append_of_ne_nil top (List.cons_ne_nil _ _),
      String.intercalate_append_of_ne_nil top (List.cons_ne_nil _ _)]
    simp [String.append_assoc]

/-- The parts of a path come from where a route starts, or from the route. -/
theorem mem_or_mem_of_mem_foldl_step {parts : List String} {path : Path} {part : String}
    (member : part ∈ parts.foldl step path) : part ∈ path ∨ part ∈ parts := by
  induction parts generalizing path with
  | nil => exact .inl member
  | cons first rest ih =>
      rcases ih member with here | later
      · rw [step] at here
        split at here
        · exact .inl (List.dropLast_subset path here)
        · rcases List.mem_append.1 here with earlier | last
          · exact .inl earlier
          · exact .inr (List.mem_cons.2 (.inl (List.mem_singleton.1 last)))
      · exact .inr (List.mem_cons_of_mem _ later)

end Path

namespace Disk

variable {disk : Disk} {path : Path}

/-- If there is room for a longer name in a path, there is for the name itself. -/
theorem short_of_extendName (nonempty : path ≠ []) {ending : String}
    (short : ¬ isTooLong (path.extendName ending)) :
    path.name.utf8ByteSize ≤ maxName ∧ path.text.utf8ByteSize ≤ maxRoute := by
  have longer : (path.extendName ending).name = path.name ++ ending := by
    simp [Path.extendName, Path.name]
  simp only [isTooLong, longer, Path.text_extendName nonempty, Bool.or_eq_true, decide_eq_true_eq,
    String.utf8ByteSize_append, not_or, not_lt] at short
  omega

theorem walk_concat {parts : List String} {start holder : Path} {name : String}
    (walked : disk.walk start parts = .ok holder) (directory : disk.item? holder = some .directory)
    (short : name.utf8ByteSize ≤ maxName) :
    disk.walk start (parts ++ [name]) = .ok (holder.step name) := by
  induction parts generalizing start with
  | nil =>
      cases walked
      rw [List.nil_append, walk, directory]
      simp only
      rw [if_neg (not_lt.2 short), walk]
  | cons part rest ih =>
      rw [List.cons_append, walk]
      rw [walk] at walked
      split at walked
      · split at walked
        · cases walked
        next fits =>
          rw [if_neg fits]
          exact ih walked
      · cases walked
      · cases walked

/-- A path leads to its place if that is in a directory. -/
theorem locate_of_parent (nonempty : path ≠ []) (normal : ".." ∉ path)
    (nameable : (Route.ofPath path).isNameable)
    (holder : disk.lookup [] (.ofPath path.parent) = .ok .directory)
    (short : path.name.utf8ByteSize ≤ maxName ∧ path.text.utf8ByteSize ≤ maxRoute) :
    disk.locate [] (.ofPath path) = .ok path := by
  obtain ⟨place, located, directory⟩ := lookup_eq_ok_iff.1 holder
  have down : ".." ∉ path.parent := fun climbs => normal (List.dropLast_subset path climbs)
  obtain rfl := eq_of_locate down located
  have isPath := Path.eq_parent_concat nonempty
  have descends : path.parent.step path.name = path := by
    rw [Path.step, if_neg, ← isPath]
    intro climbs
    exact normal (isPath ▸ climbs ▸ List.mem_append_right _ List.mem_cons_self)
  rw [locate] at located
  split at located
  · cases located
  split at located
  · cases located
  have walked := walk_concat located directory short.1
  rw [descends] at walked
  have fits : ¬ maxRoute < (Route.ofPath path).text.utf8ByteSize := not_lt.2 short.2
  rw [locate, if_neg (by simp [nameable]), if_neg fits]
  change disk.walk [] path = .ok path
  conv_lhs => rw [isPath]
  exact walked

end Disk

namespace Workspace

variable {workspace : Workspace} {disk after : Disk} {name : String} {path : Path}
  {text : List Char}

/-- Directories stay when a file is written. -/
theorem directory_of_replace {octets : List UInt8}
    (replaced : replace disk path octets = (after, .ok ())) {place : Path}
    (directory : disk.item? place = some .directory) : after.item? place = some .directory := by
  obtain ⟨-, -, free, notDirectory, rfl⟩ := replace_eq_ok_iff.1 replaced
  have notPath : place ≠ path := fun same => notDirectory (same ▸ directory)
  have notBeside : place ≠ path.extendName besideEnding := fun same => free (same ▸ directory)
  rw [Disk.item?_put_of_ne notPath, Disk.item?_erase_of_ne notBeside, directory]

/-- A file that was written is found. -/
theorem lookup_of_replace {octets : List UInt8} (normal : ".." ∉ path)
    (nameable : (Route.ofPath path).isNameable)
    (replaced : replace disk path octets = (after, .ok ())) :
    after.lookup [] (.ofPath path) = .ok (.file octets) := by
  obtain ⟨holder, short, -, notDirectory, -⟩ := replace_eq_ok_iff.1 replaced
  have nonempty := Disk.ne_nil_of_item? notDirectory
  obtain ⟨place, located, directory⟩ := Disk.lookup_eq_ok_iff.1 holder
  have kept : after.lookup [] (.ofPath path.parent) = .ok .directory :=
    Disk.lookup_eq_ok_iff.2 ⟨place,
      Disk.locate_of_directories (fun _ => directory_of_replace replaced) located,
      directory_of_replace replaced directory⟩
  exact Disk.lookup_eq_ok_iff.2 ⟨path,
    Disk.locate_of_parent nonempty normal nameable kept (Disk.short_of_extendName nonempty short),
    (replace_eq_ok replaced).2⟩

/-- Paths of a workspace can be named if its root can. -/
theorem Leads.isNameable_ofPath (leads : workspace.Leads name path)
    (root : (Route.ofPath workspace.root).isNameable) : (Route.ofPath path).isNameable := by
  have named := leads.isNameable
  simp only [Route.isNameable, Route.ofPath, List.all_eq_true] at named root ⊢
  intro part member
  rw [leads.eq_resolve.1, Route.resolve] at member
  rcases Path.mem_or_mem_of_mem_foldl_step member with above | spelled
  · split at above
    · cases above
    · exact root part above
  · exact named part spelled

/-- A text that was written is read, without a leading byte order mark. -/
theorem Leads.read_of_lookup (leads : workspace.Leads name path)
    (stands : disk.lookup [] (.ofPath path) = .ok (.file (Utf8.encode text))) :
    workspace.read disk name = .ok (Utf8.unmarked text) :=
  read_eq_ok_iff.2 ⟨path, _, leads, stands, Utf8.decodeUnmarked_encode text⟩

theorem Leads.read_eq_self_iff (leads : workspace.Leads name path)
    (stands : disk.lookup [] (.ofPath path) = .ok (.file (Utf8.encode text))) :
    workspace.read disk name = .ok text ↔ ¬ Utf8.IsMarked text := by
  rw [leads.read_of_lookup stands, Except.ok.injEq, Utf8.unmarked_eq_self_iff]

/-- A file that was written holds the octets of its text. -/
theorem exists_leads_of_write (root : (Route.ofPath workspace.root).isNameable)
    (wrote : workspace.write disk name text = (after, .ok ())) :
    ∃ path, workspace.Leads name path ∧
      after.lookup [] (.ofPath path) = .ok (.file (Utf8.encode text)) := by
  rw [write, writeOn] at wrote
  split at wrote
  · cases wrote
  next path resolved =>
    have leads : workspace.Leads name path := resolved
    exact ⟨path, leads, lookup_of_replace leads.normal (leads.isNameable_ofPath root) wrote⟩

end Workspace

namespace Gate

/-! ## Heads -/

/-- A text is written by a request to its file, and becomes its head. -/
theorem Session.Effect.of_written {session next : Session} {request : Request} {answer : Answer}
    (effect : session.Effect request answer next) {text : List Char}
    (written : answer.written? = some text) :
    ∃ path, session.gate.workspace.Leads request.name path ∧
      session.gate.workspace.write session.disk request.name text = (next.disk, .ok ()) ∧
      next.gate.history.head? (session.gate.workspace.keyAt path) =
        some (.str (String.ofList text)) := by
  cases effect with
  | idle uncommitted unrestored => simp [Answer.written?, uncommitted, unrestored] at written
  | @commit _ _ _ _ path _ _ _ _ leads _ _ wrote committed _ =>
      obtain rfl : _ = text := by simpa [Answer.written?, committed] using written
      exact ⟨path, leads, wrote, History.head?_record_self ..⟩
  | @restore _ _ path _ _ _ _ _ leads _ taken wrote uncommitted restored =>
      obtain rfl : _ = text := by simpa [Answer.written?, uncommitted, restored] using written
      obtain ⟨count, rfl⟩ := History.rollback_eq_ok taken
      exact ⟨path, leads, wrote, History.head?_drop_self ..⟩

theorem Session.Effect.workspace_eq {session next : Session} {request : Request} {answer : Answer}
    (effect : session.Effect request answer next) :
    next.gate.workspace = session.gate.workspace := by
  cases effect <;> rfl

/-- A rollback finds a file changed exactly if its text is not the head. -/
theorem rollback_eq_changed_iff (gate : Gate) {disk : Disk} {name : String} {path : Path}
    {current head : List Char} (leads : gate.workspace.Leads name path)
    (readable : gate.workspace.read disk name = .ok current)
    (recorded : gate.history.head? (gate.workspace.keyAt path) = some (.str (String.ofList head)))
    (steps : ℤ) :
    gate.rollback disk name (.int steps) = .ok (gate, disk, .error .changed) ↔ current ≠ head := by
  rw [rollback_eq leads readable, recorded, Option.any_some, isHead, String.toList_ofList]
  by_cases same : head = current
  · subst same
    refine iff_of_false (fun changed => ?_) (by simp)
    rw [if_neg (by simp)] at changed
    split at changed
    · simp at changed
    split at changed
    · simp at changed
    split at changed
    · cases changed
    · split at changed <;> simp at changed
  · rw [if_pos (by simpa using same)]
    exact iff_of_true rfl (Ne.symm same)

/-- An edit whose text does not read back cannot be taken back. -/
theorem CanCommit.rollback_changed {session : Session} {name : String} {path : Path} {edit : Edit}
    {before after current : List Char} {disk : Disk} {mode : Mode}
    (possible : CanCommit session.gate.workspace session.gate.policy session.disk name edit
      before after disk)
    (leads : session.gate.workspace.Leads name path) (wet : mode.dryRun = false) (now : Binary64)
    (readable : session.gate.workspace.read disk name = .ok current) (differs : current ≠ after)
    (steps : ℤ) :
    ((session.perform (.apply now name edit mode)).2.perform (.rollback name steps)).1 =
      .undone (.error .changed) := by
  have refused := (rollback_eq_changed_iff
    { session.gate with
      history := session.gate.history.record now (session.gate.workspace.keyAt path) before after
        (some edit) } leads readable (History.head?_record_self ..) steps).2 differs
  simp only [Session.perform, possible.apply_eq leads wet now, refused]

/-- Whether each text that the requests write in turn starts without a byte order mark. -/
def Session.WritesUnmarked (session : Session) : List Request → Prop
  | [] => True
  | request :: rest =>
      (∀ text ∈ (session.perform request).1.written?, ¬ Utf8.IsMarked text) ∧
        WritesUnmarked (session.perform request).2 rest

section ReadingBack

variable (session : Session)

/-- What a request wrote is found at the path of its file. -/
theorem Session.exists_found_of_written
    (root : (Route.ofPath session.gate.workspace.root).isNameable) {request : Request}
    {text : List Char} (written : (session.perform request).1.written? = some text) :
    ∃ path, session.gate.workspace.Leads request.name path ∧
      (session.perform request).2.disk.lookup [] (.ofPath path) = .ok (.file (Utf8.encode text)) ∧
      (session.perform request).2.gate.history.head? (session.gate.workspace.keyAt path) =
        some (.str (String.ofList text)) := by
  obtain ⟨path, leads, wrote, recorded⟩ := (session.effect_perform request).of_written written
  obtain ⟨place, also, stands⟩ := Workspace.exists_leads_of_write root wrote
  obtain rfl : path = place := Except.ok.inj (leads.symm.trans also)
  exact ⟨path, leads, stands, recorded⟩

/-- One request reads back exactly if what it writes has no mark. -/
theorem Session.returns_iff (root : (Route.ofPath session.gate.workspace.root).isNameable)
    (request : Request) :
    (session.perform request).2.Returns request (session.perform request).1.written? ↔
      ∀ text ∈ (session.perform request).1.written?, ¬ Utf8.IsMarked text := by
  refine forall₂_congr fun text written => ?_
  obtain ⟨path, leads, stands, -⟩ := session.exists_found_of_written root written
  rw [(session.effect_perform request).workspace_eq]
  exact leads.read_eq_self_iff stands

theorem Session.readsBack_iff (root : (Route.ofPath session.gate.workspace.root).isNameable)
    (requests : List Request) : session.ReadsBack requests ↔ session.WritesUnmarked requests := by
  induction requests generalizing session with
  | nil => exact Iff.rfl
  | cons request rest ih =>
      have kept := (session.effect_perform request).workspace_eq
      exact and_congr (session.returns_iff root request) (ih _ (by rwa [kept]))

end ReadingBack

/-- **Reading back.** A file that could be written reads as the text that was written, without one
leading byte order mark. So the text comes back exactly if it does not start with the mark. All this
is in a workspace whose root has a name that files can have.

A text that a request wrote is the head of its file, whoever reads the file later, as long as nobody
touches it. If the text starts with the mark, the head is not what is read, and every rollback is
refused because the file has changed; else the two are equal. A whole run of requests reads back
exactly if no text that it writes starts with the mark. -/
theorem read_write_account (gate : Gate) (disk : Disk)
    (root : (Route.ofPath gate.workspace.root).isNameable) :
    (∀ name text after, gate.workspace.write disk name text = (after, .ok ()) →
      gate.workspace.read after name = .ok (Utf8.unmarked text) ∧
      (gate.workspace.read after name = .ok text ↔ ¬ Utf8.IsMarked text)) ∧
    (∀ request answer next text, (⟨gate, disk⟩ : Session).perform request = (answer, next) →
      answer.written? = some text →
      ∃ path, gate.workspace.Leads request.name path ∧
        next.gate.history.head? (gate.workspace.keyAt path) = some (.str (String.ofList text)) ∧
        ∀ later : Disk, later.lookup [] (.ofPath path) = next.disk.lookup [] (.ofPath path) →
          gate.workspace.read later request.name = .ok (Utf8.unmarked text) ∧
          (gate.workspace.read later request.name = .ok text ↔ ¬ Utf8.IsMarked text) ∧
          ∀ steps : ℤ, next.gate.rollback later request.name (.int steps) =
            .ok (next.gate, later, .error .changed) ↔ Utf8.IsMarked text) ∧
    ∀ requests, (⟨gate, disk⟩ : Session).ReadsBack requests ↔
      (⟨gate, disk⟩ : Session).WritesUnmarked requests := by
  refine ⟨fun name text after wrote => ?_, fun request answer next text performed written => ?_,
    Session.readsBack_iff ⟨gate, disk⟩ root⟩
  · obtain ⟨path, leads, stands⟩ := Workspace.exists_leads_of_write root wrote
    exact ⟨leads.read_of_lookup stands, leads.read_eq_self_iff stands⟩
  · have kept := (Session.effect_perform ⟨gate, disk⟩ request).workspace_eq
    have found := @Session.exists_found_of_written ⟨gate, disk⟩ root request text
    rw [performed] at kept found
    obtain ⟨path, leads, stands, recorded⟩ := found written
    refine ⟨path, leads, recorded, fun later untouched => ?_⟩
    have still := untouched.trans stands
    refine ⟨leads.read_of_lookup still, leads.read_eq_self_iff still, fun steps => ?_⟩
    have alsoLeads : next.gate.workspace.Leads request.name path := kept ▸ leads
    rw [← kept] at recorded
    rw [rollback_eq_changed_iff next.gate alsoLeads (alsoLeads.read_of_lookup still) recorded,
      ne_eq, Utf8.unmarked_eq_self_iff, not_not]

/-- A carriage return, a character outside ASCII and a mark further on all come back. -/
theorem read_write_account_inner_mark :
    (Route.ofPath Sample.gate.workspace.root).isNameable ∧
    Sample.gate.workspace.read (Sample.gate.workspace.write (Sample.disk "a = 1\n") "main.lua"
      "é = 2\r\n\ufeff".toList).1 "main.lua" = .ok "é = 2\r\n\ufeff".toList := by
  have root : (Route.ofPath Sample.gate.workspace.root).isNameable := by decide +kernel
  have wrote : (Sample.gate.workspace.write (Sample.disk "a = 1\n") "main.lua"
      "é = 2\r\n\ufeff".toList).2 = .ok () := eq_ok_of_toOption (by decide +kernel)
  exact ⟨root, ((read_write_account Sample.gate (Sample.disk "a = 1\n") root).1 _ _ _
    (Prod.ext rfl wrote)).2.2 (by decide)⟩

/-- An edit puts a mark in front. The file then reads without it, and although nobody has touched
it, the edit cannot be taken back. -/
theorem rollback_refused_of_mark :
    ((⟨Sample.gate, Sample.disk "a = 1\n"⟩ : Session).perform
      (Sample.apply (Sample.replace 1 1 "\ufeffb = 2"))).1.written? =
        some "\ufeffb = 2\n".toList ∧
    Sample.gate.workspace.read ((⟨Sample.gate, Sample.disk "a = 1\n"⟩ : Session).perform
      (Sample.apply (Sample.replace 1 1 "\ufeffb = 2"))).2.disk "main.lua" =
        .ok "b = 2\n".toList ∧
    (((⟨Sample.gate, Sample.disk "a = 1\n"⟩ : Session).perform
      (Sample.apply (Sample.replace 1 1 "\ufeffb = 2"))).2.perform (.rollback "main.lua" 1)).1 =
        .undone (.error .changed) := by
  have possible : CanCommit Sample.gate.workspace Sample.gate.policy (Sample.disk "a = 1\n")
      "main.lua" (Sample.replace 1 1 "\ufeffb = 2") "a = 1\n".toList "\ufeffb = 2\n".toList
      (Sample.gate.workspace.write (Sample.disk "a = 1\n") "main.lua"
        "\ufeffb = 2\n".toList).1 :=
    canCommit_of_toOption (by decide +kernel)
  have readable : Sample.gate.workspace.read (Sample.gate.workspace.write (Sample.disk "a = 1\n")
      "main.lua" "\ufeffb = 2\n".toList).1 "main.lua" = .ok "b = 2\n".toList :=
    eq_ok_of_toOption (by decide +kernel)
  refine ⟨?_, ?_, possible.rollback_changed Sample.leads_main rfl _ readable (by decide) 1⟩
  · rw [Sample.apply, Session.perform, possible.apply_eq Sample.leads_main rfl]
    rfl
  · rw [Sample.apply, Session.perform, possible.apply_eq Sample.leads_main rfl]
    exact readable

end Gate

end EditGate

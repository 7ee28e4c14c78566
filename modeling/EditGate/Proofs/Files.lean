import EditGate.Proofs.Buffer
import EditGate.Workspace
import Mathlib

/-!
# Files of a workspace

Every name of a file leads to one path, and the key of a file tells its path from those of
all others. Writing a file changes what is read there and nowhere else, but the file that
was beside it is gone: whatever else can be read afterwards could be read before, and is the
same.
-/

namespace EditGate

/-! ## Paths -/

namespace Path

/-- Steps down lead to the parts in their order. -/
theorem foldl_step_of_normal {parts : List String} (normal : ".." ∉ parts) (path : Path) :
    parts.foldl step path = path ++ parts := by
  induction parts generalizing path with
  | nil => exact (List.append_nil path).symm
  | cons part rest ih =>
      rw [List.mem_cons, not_or] at normal
      rw [List.foldl_cons, ih normal.2, step, if_neg (Ne.symm normal.1), List.append_assoc]
      rfl

/-- What lies deeper than the start was stepped to. -/
theorem mem_of_mem_drop_foldl_step {depth : Nat} {path : Path} (shallow : path.length ≤ depth)
    {parts : List String} {part : String} (found : part ∈ (parts.foldl step path).drop depth) :
    part ∈ parts := by
  have steps : ∀ (parts : List String) (path : Path),
      part ∈ (parts.foldl step path).drop depth → part ∈ path.drop depth ∨ part ∈ parts := by
    intro parts
    induction parts with
    | nil => exact fun path found => .inl found
    | cons first rest ih =>
        intro path found
        rcases ih _ found with near | later
        · rw [step] at near
          split at near
          · rw [List.dropLast_eq_take, List.drop_take] at near
            exact .inl (List.mem_of_mem_take near)
          · rw [List.drop_append, List.mem_append] at near
            rcases near with old | new
            · exact .inl old
            · exact .inr (List.mem_cons.2 (.inl (List.mem_singleton.1 (List.mem_of_mem_drop new))))
        · exact .inr (List.mem_cons_of_mem first later)
  rcases steps parts path found with near | stepped
  · rw [List.drop_eq_nil_of_le shallow] at near
    cases near
  · exact stepped

end Path

/-- The parts of a written path are no places of their own, and no slash is in them. -/
theorem Route.of_mem_parts_ofText {text part : String} (found : part ∈ (ofText text).parts) :
    part ≠ "" ∧ part ≠ "." ∧ '/' ∉ part.toList := by
  simp only [ofText, List.mem_filter, List.mem_map, moves, Bool.and_eq_true, bne_iff_ne] at found
  obtain ⟨⟨piece, member, rfl⟩, nonempty, moves⟩ := found
  refine ⟨nonempty, moves, ?_⟩
  rw [String.toList_ofList]
  exact notMem_of_mem_pieces member

namespace Workspace

/-! ## Keys -/

/-- The key of the file at a path. -/
def keyAt (workspace : Workspace) (path : Path) : String :=
  keyText (path.drop workspace.root.length)

/-- Whether a name leads to a path of the workspace. -/
def Leads (workspace : Workspace) (name : String) (path : Path) : Prop :=
  workspace.resolve name = .ok path

variable {workspace : Workspace} {name other : String} {path place : Path}

theorem Leads.key_eq (leads : workspace.Leads name path) :
    workspace.key name = .ok (workspace.keyAt path) := by
  rw [key, leads]
  rfl

/-- A file with a key is at a path. -/
theorem exists_leads_of_key {key : String} (keyed : workspace.key name = .ok key) :
    ∃ path, workspace.Leads name path ∧ workspace.keyAt path = key := by
  simp only [Workspace.key] at keyed
  cases resolved : workspace.resolve name with
  | error refusal =>
      rw [resolved] at keyed
      cases keyed
  | ok path =>
      rw [resolved] at keyed
      cases keyed
      exact ⟨path, resolved, rfl⟩

theorem Leads.isNameable (leads : workspace.Leads name path) :
    (Route.ofText name).isNameable = true := by
  simp only [Leads, resolve] at leads
  split at leads
  · cases leads
  next nameable => simpa using nameable

theorem Leads.eq_resolve (leads : workspace.Leads name path) :
    path = (Route.ofText name).resolve workspace.root ∧ workspace.root <+: path := by
  simp only [Leads, resolve] at leads
  split at leads
  · cases leads
  · split at leads
    next inside =>
      cases leads
      exact ⟨rfl, List.isPrefixOf_iff_prefix.1 inside⟩
    · cases leads

theorem Leads.normal (leads : workspace.Leads name path) : ".." ∉ path := by
  rw [leads.eq_resolve.1, Route.resolve]
  split
  · exact Path.notMem_foldl_step List.not_mem_nil _
  · exact Path.notMem_foldl_step workspace.root_normal _

/-- Below the root, a path has only parts that the name spelled out. -/
theorem Leads.mem_parts (leads : workspace.Leads name path) {part : String}
    (found : part ∈ path.drop workspace.root.length) : part ∈ (Route.ofText name).parts := by
  rw [leads.eq_resolve.1, Route.resolve] at found
  have shallow : (if (Route.ofText name).isAbsolute then [] else workspace.root).length ≤
      workspace.root.length := by
    split
    · exact Nat.zero_le _
    · exact le_refl _
  exact Path.mem_of_mem_drop_foldl_step shallow found

theorem Leads.of_mem_drop (leads : workspace.Leads name path) {part : String}
    (found : part ∈ path.drop workspace.root.length) : part ≠ "." ∧ '/' ∉ part.toList :=
  (Route.of_mem_parts_ofText (leads.mem_parts found)).2

/-- A key has as many parts as the path has, each as it is. -/
theorem splitOn_keyText {parts : Path} (nonempty : parts ≠ [])
    (plain : ∀ part ∈ parts, '/' ∉ part.toList) :
    (keyText parts).toList.splitOn '/' = parts.map String.toList := by
  have joined : (keyText parts).toList = ['/'].intercalate (parts.map String.toList) := by
    cases parts with
    | nil => exact absurd rfl nonempty
    | cons part rest => exact String.toList_intercalate
  rw [joined]
  refine List.splitOn_intercalate '/' ?_ (by simpa using nonempty)
  intro chars member
  obtain ⟨part, found, rfl⟩ := List.mem_map.1 member
  exact plain part found

/-- Only the root has the key that stands for it. -/
theorem keyText_eq_dot_iff {parts : Path} (plain : ∀ part ∈ parts, part ≠ "." ∧ '/' ∉ part.toList) :
    keyText parts = "." ↔ parts = [] := by
  constructor
  · intro dot
    by_contra nonempty
    have single := splitOn_keyText nonempty fun part found => (plain part found).2
    rw [dot] at single
    have only : parts.map String.toList = [".".toList] := single.symm.trans (by decide)
    obtain ⟨part, rfl, spelled⟩ := List.map_eq_singleton_iff.1 only
    exact (plain part List.mem_cons_self).1 (String.toList_inj.1 spelled)
  · rintro rfl
    rfl

/-- Different files have different keys. -/
theorem Leads.eq_of_keyAt_eq (leads : workspace.Leads name path)
    (also : workspace.Leads other place) (same : workspace.keyAt path = workspace.keyAt place) :
    path = place := by
  have below : path.drop workspace.root.length = place.drop workspace.root.length := by
    simp only [keyAt] at same
    by_cases top : path.drop workspace.root.length = []
    · rw [top] at same ⊢
      exact ((keyText_eq_dot_iff fun _ => also.of_mem_drop).1 same.symm).symm
    · have notTop : place.drop workspace.root.length ≠ [] := by
        intro isTop
        rw [isTop] at same
        exact top ((keyText_eq_dot_iff fun _ => leads.of_mem_drop).1 same)
      have parts := splitOn_keyText top fun _ found => (leads.of_mem_drop found).2
      rw [same, splitOn_keyText notTop fun _ found => (also.of_mem_drop found).2] at parts
      exact (List.map_injective_iff.2 (fun _ _ => String.toList_inj.1) parts).symm
  obtain ⟨rest, rfl⟩ := leads.eq_resolve.2
  obtain ⟨others, rfl⟩ := also.eq_resolve.2
  rw [List.drop_left, List.drop_left] at below
  rw [below]

end Workspace

/-! ## Disks -/

namespace Disk

variable {disk : Disk} {path other : Path}

theorem ne_nil_of_item? (notDirectory : disk.item? path ≠ some .directory) : path ≠ [] := by
  rintro rfl
  exact notDirectory rfl

theorem item?_of_ne_nil (nonempty : path ≠ []) : disk.item? path = Assoc.find? path disk.items := by
  cases path with
  | nil => exact absurd rfl nonempty
  | cons part rest => rfl

theorem item?_put_self (nonempty : path ≠ []) (item : Item) :
    (disk.put path item).item? path = some item := by
  rw [item?_of_ne_nil nonempty]
  exact Assoc.find?_put_self ..

theorem item?_put_of_ne (different : other ≠ path) (item : Item) :
    (disk.put path item).item? other = disk.item? other := by
  cases other with
  | nil => rfl
  | cons part rest => exact Assoc.find?_put_of_ne different ..

theorem item?_erase_self (nonempty : path ≠ []) : (disk.erase path).item? path = none := by
  rw [item?_of_ne_nil nonempty]
  exact Assoc.find?_erase_self ..

theorem item?_erase_of_ne (different : other ≠ path) :
    (disk.erase path).item? other = disk.item? other := by
  cases other with
  | nil => rfl
  | cons part rest => exact Assoc.find?_erase_of_ne different ..

/-- From one disk to another, nothing has come about but a file at a path. -/
structure OnlyFileAt (path : Path) (before after : Disk) : Prop where
  directory : ∀ place, after.item? place = some .directory → before.item? place = some .directory
  item : ∀ place, place ≠ path → ∀ item, after.item? place = some item →
    before.item? place = some item

/-- A walk ends where its steps lead. -/
theorem walk_eq_ok {parts : List String} {start finish : Path}
    (walked : disk.walk start parts = .ok finish) : finish = parts.foldl Path.step start := by
  induction parts generalizing start with
  | nil =>
      cases walked
      rfl
  | cons part rest ih =>
      rw [walk] at walked
      split at walked
      · split at walked
        · cases walked
        · exact ih walked
      · cases walked
      · cases walked

theorem OnlyFileAt.walk {before after : Disk} (only : OnlyFileAt path before after)
    {parts : List String} {start finish : Path} (walked : after.walk start parts = .ok finish) :
    before.walk start parts = .ok finish := by
  induction parts generalizing start with
  | nil => exact walked
  | cons part rest ih =>
      rw [Disk.walk] at walked ⊢
      split at walked
      next here =>
        rw [only.directory start here]
        simp only
        split at walked
        · cases walked
        next fits =>
          rw [if_neg fits]
          exact ih walked
      · cases walked
      · cases walked

/-- What a route leads to stands at some place. -/
theorem lookup_eq_ok_iff {route : Route} {item : Item} :
    disk.lookup [] route = .ok item ↔
      ∃ place, disk.locate [] route = .ok place ∧ disk.item? place = some item := by
  rw [lookup]
  cases disk.locate [] route with
  | error trouble => simp [bind, Except.bind]
  | ok place =>
      simp only [bind, Except.bind, Except.ok.injEq, exists_eq_left']
      cases disk.item? place <;> simp

/-- A normal path leads to itself. -/
theorem eq_of_locate (normal : ".." ∉ path) {place : Path}
    (located : disk.locate [] (.ofPath path) = .ok place) : place = path := by
  rw [locate] at located
  split at located
  · cases located
  · split at located
    · cases located
    · rw [walk_eq_ok located]
      exact Path.foldl_step_of_normal normal []

theorem OnlyFileAt.locate {before after : Disk} (only : OnlyFileAt path before after)
    {route : Route} {place : Path} (located : after.locate [] route = .ok place) :
    before.locate [] route = .ok place := by
  rw [Disk.locate] at located ⊢
  split at located
  · cases located
  next nameable =>
    rw [if_neg nameable]
    split at located
    · cases located
    next fits =>
      rw [if_neg fits]
      exact only.walk located

/-- What a normal path leads to is what stands there. -/
theorem item?_of_lookup (normal : ".." ∉ path) {item : Item}
    (found : disk.lookup [] (.ofPath path) = .ok item) : disk.item? path = some item := by
  obtain ⟨place, located, stands⟩ := lookup_eq_ok_iff.1 found
  rwa [eq_of_locate normal located] at stands

/-- Other files that can be found afterwards could be found before. -/
theorem OnlyFileAt.lookup {before after : Disk} (only : OnlyFileAt path before after)
    (normal : ".." ∉ other) (different : other ≠ path) {item : Item}
    (found : after.lookup [] (.ofPath other) = .ok item) :
    before.lookup [] (.ofPath other) = .ok item := by
  obtain ⟨place, located, stands⟩ := lookup_eq_ok_iff.1 found
  have isOther := eq_of_locate normal located
  exact lookup_eq_ok_iff.2
    ⟨place, only.locate located, only.item place (isOther ▸ different) item stands⟩

/-- Reading finds a file. -/
theorem read_eq_ok_iff {route : Route} {octets : List UInt8} :
    disk.read [] route = .ok octets ↔ disk.lookup [] route = .ok (.file octets) := by
  rw [read]
  split
  next found => simp [found]
  next found => simp [found]
  next found => simp [found]

end Disk

namespace Workspace

variable {workspace : Workspace} {disk : Disk} {name other : String} {path place : Path}
  {text : List Char}

/-! ## Reading -/

/-- What is read is what the octets of a file write. -/
theorem read_eq_ok_iff :
    workspace.read disk name = .ok text ↔
      ∃ path octets, workspace.Leads name path ∧
        disk.lookup [] (.ofPath path) = .ok (.file octets) ∧
        Utf8.decodeUnmarked octets = .ok text := by
  simp only [read, Leads]
  cases workspace.resolve name with
  | error refusal => simp [bind, Except.bind, Except.mapError]
  | ok path =>
      simp only [bind, Except.bind, Except.mapError, Except.ok.injEq, exists_and_left,
        exists_eq_left', ← Disk.read_eq_ok_iff]
      cases disk.read [] (.ofPath path) with
      | error error => simp
      | ok octets =>
          simp only [Except.ok.injEq, exists_eq_left']
          cases Utf8.decodeUnmarked octets <;> simp

/-- All names of a file read the same. -/
theorem Leads.read_eq (leads : workspace.Leads name path) (also : workspace.Leads other path) :
    workspace.read disk name = workspace.read disk other := by
  rw [read, read, leads, also]

/-- Other files that can be read afterwards could be read before, with the same text. -/
theorem read_of_onlyFileAt {before after : Disk} (only : Disk.OnlyFileAt path before after)
    (leads : workspace.Leads other place) (different : place ≠ path)
    (readable : workspace.read after other = .ok text) :
    workspace.read before other = .ok text := by
  obtain ⟨found, octets, alsoLeads, stands, decoded⟩ := read_eq_ok_iff.1 readable
  obtain rfl : place = found := Except.ok.inj (leads.symm.trans alsoLeads)
  exact read_eq_ok_iff.2
    ⟨place, octets, leads, only.lookup leads.normal different stands, decoded⟩

/-- Where a text is read, there is a file. -/
theorem Leads.item?_of_read (leads : workspace.Leads name path)
    (readable : workspace.read disk name = .ok text) :
    ∃ octets, disk.item? path = some (.file octets) := by
  obtain ⟨found, octets, alsoLeads, stands, -⟩ := read_eq_ok_iff.1 readable
  obtain rfl : path = found := Except.ok.inj (leads.symm.trans alsoLeads)
  exact ⟨octets, Disk.item?_of_lookup leads.normal stands⟩

/-! ## Writing -/

/-- Writes octets to a path, with nothing that breaks off. -/
def replace (disk : Disk) (path : Path) (octets : List UInt8) : Disk × Except WriteError Unit :=
  replaceOn .sound disk path octets

/-- All that can come of writing octets to a path. -/
theorem replace_cases (disk : Disk) (path : Path) (octets : List UInt8) :
    (∃ cause, replace disk path octets = (disk, .error cause)) ∨
      (disk.item? path = some .directory ∧ ∃ cause,
        replace disk path octets = (disk.erase (path.extendName besideEnding), .error cause)) ∨
      (disk.item? path ≠ some .directory ∧
        replace disk path octets =
          ((disk.erase (path.extendName besideEnding)).put path (.file octets), .ok ())) := by
  simp only [replace, replaceOn, Disk.Device.sound]
  split
  · exact .inl ⟨_, rfl⟩
  · exact .inl ⟨_, rfl⟩
  · split
    · exact .inl ⟨_, rfl⟩
    · split
      · exact .inl ⟨_, rfl⟩
      · split
        next isDirectory => exact .inr (.inl ⟨isDirectory, _, rfl⟩)
        next notDirectory => exact .inr (.inr ⟨notDirectory, rfl⟩)

/-- The file beside is gone, and all else but the file itself is as it was. -/
theorem onlyFileAt_replaced (notDirectory : disk.item? path ≠ some .directory)
    (octets : List UInt8) :
    Disk.OnlyFileAt path disk
      ((disk.erase (path.extendName besideEnding)).put path (.file octets)) := by
  have kept : ∀ place, place ≠ path → ∀ item,
      ((disk.erase (path.extendName besideEnding)).put path (.file octets)).item? place =
        some item → disk.item? place = some item := by
    intro place different item stands
    rw [Disk.item?_put_of_ne different] at stands
    by_cases isBeside : place = path.extendName besideEnding
    · have gone : (disk.erase place).item? place = none :=
        Disk.item?_erase_self (by simp [isBeside, Path.extendName])
      rw [← isBeside, gone] at stands
      cases stands
    · rwa [Disk.item?_erase_of_ne isBeside] at stands
  refine ⟨fun place here => ?_, kept⟩
  by_cases isPath : place = path
  · rw [isPath, Disk.item?_put_self (Disk.ne_nil_of_item? notDirectory)] at here
    cases here
  · exact kept place isPath _ here

/-- A file that is written stands at its path, and nothing else has come about. -/
theorem replace_eq_ok {after : Disk} {octets : List UInt8}
    (replaced : replace disk path octets = (after, .ok ())) :
    Disk.OnlyFileAt path disk after ∧ after.item? path = some (.file octets) := by
  rcases replace_cases disk path octets with ⟨_, failed⟩ | ⟨_, _, failed⟩ | ⟨notDirectory, done⟩
  · rw [failed] at replaced
    cases replaced
  · rw [failed] at replaced
    cases replaced
  · rw [done] at replaced
    cases replaced
    exact ⟨onlyFileAt_replaced notDirectory octets,
      Disk.item?_put_self (Disk.ne_nil_of_item? notDirectory) _⟩

/-- Where a file stands, a failure to write it leaves the disk as it is. -/
theorem replace_eq_error {after : Disk} {octets old : List UInt8} {cause : WriteError}
    (file : disk.item? path = some (.file old))
    (failed : replace disk path octets = (after, .error cause)) : after = disk := by
  rcases replace_cases disk path octets with ⟨_, same⟩ | ⟨isDirectory, -⟩ | ⟨_, done⟩
  · rw [same] at failed
    cases failed
    rfl
  · rw [file] at isDirectory
    cases isDirectory
  · rw [done] at failed
    cases failed

theorem writeOn_sound (workspace : Workspace) (disk : Disk) (name : String) (text : List Char) :
    workspace.writeOn .sound disk name text = workspace.write disk name text :=
  rfl

theorem Leads.write_eq (leads : workspace.Leads name path) (text : List Char) :
    workspace.write disk name text = replace disk path (Utf8.encode text) := by
  rw [write, writeOn, leads]
  rfl

/-- A device makes no difference unless it breaks off in the file beside. Then nothing else has
stood in the way, but for a directory at the path. -/
theorem replaceOn_cases (device : Disk.Device) (disk : Disk) (path : Path) (octets : List UInt8) :
    replaceOn device disk path octets = replace disk path octets ∨
      ∃ count reason, device (path.extendName besideEnding) octets = .cut count reason ∧
        replaceOn device disk path octets =
          (disk.erase (path.extendName besideEnding), .error (.broken reason)) ∧
        (disk.item? path ≠ some .directory → (replace disk path octets).2 = .ok ()) := by
  simp only [replace, replaceOn, Disk.Device.sound]
  split
  · exact .inl rfl
  · exact .inl rfl
  · split
    · exact .inl rfl
    · split
      · exact .inl rfl
      · cases device (path.extendName besideEnding) octets with
        | whole => exact .inl rfl
        | cut count reason =>
            refine .inr ⟨count, reason, rfl, rfl, fun notDirectory => ?_⟩
            rw [if_neg notDirectory]

theorem Leads.writeOn_cases (leads : workspace.Leads name path) (device : Disk.Device)
    (text : List Char) :
    workspace.writeOn device disk name text = workspace.write disk name text ∨
      ∃ count reason,
        device (path.extendName besideEnding) (Utf8.encode text) = .cut count reason ∧
        workspace.writeOn device disk name text =
          (disk.erase (path.extendName besideEnding), .error (.broken reason)) ∧
        (disk.item? path ≠ some .directory → (workspace.write disk name text).2 = .ok ()) := by
  rw [leads.write_eq, writeOn, leads]
  exact replaceOn_cases device disk path (Utf8.encode text)

/-- What is written on a device is written where nothing breaks off. -/
theorem write_of_writeOn {device : Disk.Device} {text : List Char} {after : Disk}
    (wrote : workspace.writeOn device disk name text = (after, .ok ())) :
    workspace.write disk name text = (after, .ok ()) := by
  cases leads : workspace.resolve name with
  | error refusal =>
      rw [writeOn, leads] at wrote
      cases wrote
  | ok path =>
      rcases Leads.writeOn_cases leads device text with same | ⟨_, _, _, broken, _⟩
      · rwa [same] at wrote
      · rw [broken] at wrote
        cases wrote

/-- After a file was written, and reads as what was written, every other file that can be read
has the text that it had before. -/
theorem Leads.read_of_write (leads : workspace.Leads name path) {written found : List Char}
    {after : Disk} (wrote : workspace.write disk name written = (after, .ok ()))
    (back : workspace.read after name = .ok written) (also : workspace.Leads other place)
    (readable : workspace.read after other = .ok found) :
    (place = path ∧ found = written) ∨ (place ≠ path ∧ workspace.read disk other = .ok found) := by
  by_cases same : place = path
  · subst same
    rw [also.read_eq leads, back] at readable
    exact .inl ⟨rfl, (Except.ok.inj readable).symm⟩
  · rw [leads.write_eq] at wrote
    exact .inr ⟨same, read_of_onlyFileAt (replace_eq_ok wrote).1 also same readable⟩

/-- Whether a file can be written does not depend on the text. -/
theorem snd_write_eq (workspace : Workspace) (disk : Disk) (name : String)
    (first second : List Char) :
    (workspace.write disk name first).2 = (workspace.write disk name second).2 := by
  simp only [write, writeOn]
  split
  · rfl
  · simp only [replaceOn, Disk.Device.sound]
    split
    · rfl
    · rfl
    · split
      · rfl
      · split
        · rfl
        · split <;> rfl

/-- A file that could be read and not be written is still the same, like the whole disk. -/
theorem Leads.eq_of_write_error (leads : workspace.Leads name path)
    (readable : workspace.read disk name = .ok text) {new : List Char} {after : Disk}
    {cause : WriteError} (failed : workspace.write disk name new = (after, .error cause)) :
    after = disk := by
  obtain ⟨octets, file⟩ := leads.item?_of_read readable
  rw [leads.write_eq] at failed
  exact replace_eq_error file failed

end Workspace

end EditGate

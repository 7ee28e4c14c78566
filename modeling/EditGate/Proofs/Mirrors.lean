import EditGate.Proofs.Loading
import Mathlib

/-!
# Mirrored disks

Who stores something beside the files of a workspace leaves a disk that is the one without it, apart
from one place and from directories on the way there. Other files are read and written alike on
both, as long as whatever exists is in a directory.
-/

namespace EditGate

namespace Disk

variable {disk twin after : Disk} {path place : Path}

/-! ## Trees -/

/-- Whatever exists is in a directory. -/
def IsTree (disk : Disk) : Prop :=
  ∀ path, disk.item? path ≠ none → disk.item? path.parent = some .directory

theorem IsTree.directory_of_isPrefix (tree : disk.IsTree) (stands : disk.item? path ≠ none)
    {front : Path} (leads : front <+: path) (different : front ≠ path) :
    disk.item? front = some .directory := by
  induction path using List.reverseRecOn with
  | nil => exact absurd (List.prefix_nil.1 leads) different
  | append_singleton holder name ih =>
      have above : disk.item? holder = some .directory := by
        simpa [Path.parent] using tree _ stands
      rcases List.prefix_concat_iff.1 leads with whole | within
      · exact absurd whole different
      · by_cases same : front = holder
        · rwa [same]
        · exact ih (by simp [above]) within same

/-- A walk down leads to the same place on a disk with directories all the way. -/
theorem walk_of_fronts {parts : List String} {start finish : Path} (normal : ".." ∉ parts)
    (walked : disk.walk start parts = .ok finish)
    (fronts : ∀ front, front <+: start ++ parts → front ≠ start ++ parts →
      twin.item? front = some .directory) : twin.walk start parts = .ok finish := by
  induction parts generalizing start with
  | nil => exact walked
  | cons part rest ih =>
      rw [List.mem_cons, not_or] at normal
      have down : start.step part = start ++ [part] := if_neg fun climbs => normal.1 climbs.symm
      rw [walk] at walked ⊢
      rw [fronts start (List.prefix_append ..) (by simp)]
      split at walked
      · split at walked
        · cases walked
        next short =>
          rw [if_neg short]
          rw [down] at walked ⊢
          refine ih normal.2 walked ?_
          simpa only [List.append_assoc, List.singleton_append] using fronts
      · cases walked
      · cases walked

/-- A path that can be followed on one disk is found on a tree if anything stands there. -/
theorem IsTree.lookup_eq (tree : twin.IsTree) (normal : ".." ∉ path) {item other : Item}
    (found : disk.lookup [] (.ofPath path) = .ok item) (stands : twin.item? path = some other) :
    twin.lookup [] (.ofPath path) = .ok other := by
  obtain ⟨finish, located, -⟩ := lookup_eq_ok_iff.1 found
  have isPath := eq_of_locate normal located
  have present : twin.item? path ≠ none := by simp [stands]
  refine lookup_eq_ok_iff.2 ⟨finish, ?_, isPath ▸ stands⟩
  rw [locate] at located ⊢
  split at located
  · cases located
  next nameable =>
    rw [if_neg nameable]
    split at located
    · cases located
    next short =>
      rw [if_neg short]
      refine walk_of_fronts normal located fun front leads different => ?_
      exact tree.directory_of_isPrefix present leads different

/-! ## Mirrors -/

/-- A disk is another one apart from what stands in one place, where the other has nothing, and
from directories that have come about. -/
structure Mirrors (place : Path) (disk twin : Disk) : Prop where
  items : ∀ path ≠ place, disk.item? path = twin.item? path ∨
    disk.item? path = some .directory ∧ twin.item? path = none
  absent : twin.item? place = none
  tree : twin.IsTree

theorem mirrors_self (tree : disk.IsTree) (absent : disk.item? place = none) :
    Mirrors place disk disk :=
  ⟨fun _ _ => Or.inl rfl, absent, tree⟩

namespace Mirrors

theorem item?_file_iff (mirrors : Mirrors place disk twin) (different : path ≠ place)
    {octets : List UInt8} :
    disk.item? path = some (.file octets) ↔ twin.item? path = some (.file octets) := by
  rcases mirrors.items path different with same | ⟨made, missing⟩
  · rw [same]
  · simp [made, missing]

theorem directory (mirrors : Mirrors place disk twin)
    (directory : twin.item? path = some .directory) : disk.item? path = some .directory := by
  have different : path ≠ place := by
    rintro rfl
    rw [mirrors.absent] at directory
    cases directory
  rcases mirrors.items path different with same | ⟨made, -⟩
  · rw [same, directory]
  · exact made

/-- Both disks have the same files to be found. -/
theorem lookup_file_iff (mirrors : Mirrors place disk twin) (normal : ".." ∉ path)
    (different : path ≠ place) {octets : List UInt8} :
    disk.lookup [] (.ofPath path) = .ok (.file octets) ↔
      twin.lookup [] (.ofPath path) = .ok (.file octets) := by
  constructor
  · intro found
    exact mirrors.tree.lookup_eq normal found
      ((mirrors.item?_file_iff different).1 (item?_of_lookup normal found))
  · intro found
    obtain ⟨finish, located, stands⟩ := lookup_eq_ok_iff.1 found
    have isPath := eq_of_locate normal located
    refine lookup_eq_ok_iff.2 ⟨finish, locate_of_directories ?_ located, ?_⟩
    · exact fun _ => mirrors.directory
    · exact (mirrors.item?_file_iff (isPath ▸ different)).2 stands

theorem of_grows (mirrors : Mirrors place disk twin) (grows : Grows disk after) :
    Mirrors place after twin where
  items := by
    intro path different
    rcases grows path with same | ⟨missing, made⟩
    · rw [same]
      exact mirrors.items path different
    · rcases mirrors.items path different with alike | ⟨directory, -⟩
      · exact Or.inr ⟨made, alike ▸ missing⟩
      · rw [missing] at directory
        cases directory
  absent := mirrors.absent
  tree := mirrors.tree

theorem put_place (mirrors : Mirrors place disk twin) (item : Item) :
    Mirrors place (disk.put place item) twin where
  items := by
    intro path different
    rw [item?_put_of_ne different]
    exact mirrors.items path different
  absent := mirrors.absent
  tree := mirrors.tree

end Mirrors

end Disk

/-- Saving a history changes nothing but its file and directories. -/
theorem Gate.mirrors_of_save {gate : Gate} {disk twin after : Disk}
    (mirrors : Disk.Mirrors gate.historyPath disk twin)
    (saved : gate.save disk = (after, .ok ())) : Disk.Mirrors gate.historyPath after twin := by
  obtain ⟨middle, text, grows, -, -, rfl, -⟩ := save_eq_ok saved
  exact (mirrors.of_grows grows).put_place _

namespace Workspace

variable {workspace : Workspace} {disk twin after : Disk} {name : String} {path place : Path}

/-! ## Reading and writing -/

/-- A file that is not at the odd place reads the same on both disks, if it can be read. -/
theorem toOption_read_eq (mirrors : Disk.Mirrors place disk twin)
    (elsewhere : ∀ path, workspace.Leads name path → path ≠ place) :
    (workspace.read disk name).toOption = (workspace.read twin name).toOption := by
  have alike : ∀ text,
      workspace.read disk name = .ok text ↔ workspace.read twin name = .ok text := by
    intro text
    simp only [read_eq_ok_iff]
    refine exists_congr fun path => exists_congr fun octets => and_congr_right fun leads => ?_
    rw [mirrors.lookup_file_iff leads.normal (elsewhere path leads)]
  cases first : workspace.read disk name with
  | ok text => rw [(alike text).1 first]
  | error cause =>
      cases second : workspace.read twin name with
      | error other => rfl
      | ok text =>
          rw [(alike text).2 second] at first
          cases first

theorem replace_eq_ok_iff {octets : List UInt8} :
    replace disk path octets = (after, .ok ()) ↔
      disk.lookup [] (.ofPath path.parent) = .ok .directory ∧
        ¬ Disk.isTooLong (path.extendName besideEnding) ∧
        disk.item? (path.extendName besideEnding) ≠ some .directory ∧
        disk.item? path ≠ some .directory ∧
        (disk.erase (path.extendName besideEnding)).put path (.file octets) = after := by
  simp only [replace, replaceOn, Disk.Device.sound]
  split
  next trouble => simp [trouble]
  next holder => simp [holder]
  next holder =>
    simp only [holder, true_and]
    split
    next long => simp [long]
    next short =>
      split
      next blocked => simp [blocked]
      next free =>
        split
        next isDirectory => simp [isDirectory]
        next notDirectory => simp [short, free, notDirectory]

/-- Writing over a file of a tree leaves a tree. -/
theorem isTree_replaced {octets old : List UInt8} (tree : disk.IsTree)
    (file : disk.item? path = some (.file old))
    (free : disk.item? (path.extendName besideEnding) ≠ some .directory) :
    ((disk.erase (path.extendName besideEnding)).put path (.file octets)).IsTree := by
  have only : Disk.OnlyFileAt path disk _ := onlyFileAt_replaced (by simp [file]) octets
  intro other stands
  have stood : disk.item? other ≠ none := by
    by_cases same : other = path
    · simp [same, file]
    · obtain ⟨item, holds⟩ := Option.ne_none_iff_exists'.1 stands
      simp [only.item other same item holds]
  have holder := tree other stood
  have notPath : other.parent ≠ path := by
    intro same
    rw [same, file] at holder
    cases holder
  have notBeside : other.parent ≠ path.extendName besideEnding := fun same => free (same ▸ holder)
  rw [Disk.item?_put_of_ne notPath, Disk.item?_erase_of_ne notBeside, holder]

/-- A file that is written on one disk can be written on the other, and both are alike again. -/
theorem exists_replace_of_mirrors (mirrors : Disk.Mirrors place disk twin) (normal : ".." ∉ path)
    (different : path ≠ place) {octets old : List UInt8}
    (file : disk.item? path = some (.file old))
    (replaced : replace disk path octets = (after, .ok ())) :
    ∃ other, replace twin path octets = (other, .ok ()) ∧ Disk.Mirrors place after other := by
  obtain ⟨holder, short, free, notDirectory, rfl⟩ := replace_eq_ok_iff.1 replaced
  have stands := (mirrors.item?_file_iff different).1 file
  have above : twin.item? path.parent = some .directory := mirrors.tree path (by simp [stands])
  have alsoFree : twin.item? (path.extendName besideEnding) ≠ some .directory :=
    fun directory => free (mirrors.directory directory)
  have down : ".." ∉ path.parent := fun climbs => normal (List.dropLast_subset path climbs)
  refine ⟨_, replace_eq_ok_iff.2 ⟨mirrors.tree.lookup_eq down holder above, short, alsoFree,
    by simp [stands], rfl⟩, ?_, ?_, isTree_replaced mirrors.tree stands alsoFree⟩
  · intro other apart
    by_cases same : other = path
    · subst same
      have nonempty := Disk.ne_nil_of_item? notDirectory
      exact Or.inl (by simp only [Disk.item?_put_self nonempty])
    · rw [Disk.item?_put_of_ne same, Disk.item?_put_of_ne same]
      by_cases beside : other = path.extendName besideEnding
      · subst beside
        have nonempty := Disk.ne_nil_of_item? free
        exact Or.inl (by simp only [Disk.item?_erase_self nonempty])
      · rw [Disk.item?_erase_of_ne beside, Disk.item?_erase_of_ne beside]
        exact mirrors.items other apart
  · rw [Disk.item?_put_of_ne different.symm]
    by_cases beside : place = path.extendName besideEnding
    · subst beside
      exact Disk.item?_erase_self (Disk.ne_nil_of_item? free)
    · rw [Disk.item?_erase_of_ne beside, mirrors.absent]

theorem exists_write_of_mirrors (mirrors : Disk.Mirrors place disk twin)
    (elsewhere : ∀ path, workspace.Leads name path → path ≠ place) {current text : List Char}
    (readable : workspace.read disk name = .ok current)
    (wrote : workspace.write disk name text = (after, .ok ())) :
    ∃ other, workspace.write twin name text = (other, .ok ()) ∧
      Disk.Mirrors place after other := by
  obtain ⟨path, octets, leads, -, -⟩ := read_eq_ok_iff.1 readable
  obtain ⟨old, file⟩ := leads.item?_of_read readable
  rw [leads.write_eq] at wrote ⊢
  exact exists_replace_of_mirrors mirrors leads.normal (elsewhere path leads) file wrote

end Workspace

end EditGate

import EditGate.Disk

/-!
# Changes of a disk

What has to be done to one disk to make it another: directories are made first, outer ones
before inner ones, then files are written, and last files are removed.
-/

namespace EditGate.Disk

/-- One thing to be done. -/
inductive Change where
  | make (path : Path)
  | write (path : Path) (octets : List UInt8)
  | remove (path : Path)

/-- The directories of a disk that another has not. -/
def made (before after : Disk) : List Change :=
  after.items.filterMap fun
    | (path, .directory) =>
        if before.item? path = some .directory then none else some (.make path)
    | (_, .file _) => none

/-- The files of a disk that another has not, or not with the same octets. -/
def written (before after : Disk) : List Change :=
  after.items.filterMap fun
    | (path, .file octets) =>
        if before.item? path = some (.file octets) then none else some (.write path octets)
    | (_, .directory) => none

/-- The files of a disk in whose place another has nothing. -/
def removed (before after : Disk) : List Change :=
  before.items.filterMap fun
    | (path, .file _) => if (after.item? path).isNone then some (.remove path) else none
    | (_, .directory) => none

/-- All that has to be done to a disk to make it another. -/
def changes (before after : Disk) : List Change :=
  made before after ++ written before after ++ removed before after

end EditGate.Disk

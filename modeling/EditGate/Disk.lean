import EditGate.Assoc
import EditGate.Path
import EditGate.Text.Quoted

/-!
# Disks

The files and directories that exist, by their paths. A route is walked part by part:
every place on the way has to be a directory, also where the route climbs. What stands at
its end is for the operation to judge. Names and routes are bounded in their length, and
none holds a zero character. Behind the disk is a device, which may break off where a file
is written.
-/

namespace EditGate

/-- What stands at a path. -/
inductive Disk.Item where
  | file (octets : List UInt8)
  | directory
deriving DecidableEq, Repr

/-- The files and directories below the top. -/
structure Disk where
  items : Assoc Path Disk.Item := []

namespace Disk

/-- What can be wrong with a place. -/
inductive Trouble where
  /-- There is nothing. -/
  | missing
  /-- There is something already. -/
  | occupied
  /-- A file stands in the way. -/
  | notDirectory
  /-- There is a directory and not a file. -/
  | isDirectory
  /-- A name, or the whole route, is too long. -/
  | nameTooLong
  /-- A name holds a zero character. -/
  | unnameable
deriving DecidableEq, Repr

/-- The wording of a trouble, with its customary number. -/
def Trouble.message : Trouble → String
  | missing => "[Errno 2] No such file or directory"
  | occupied => "[Errno 17] File exists"
  | notDirectory => "[Errno 20] Not a directory"
  | isDirectory => "[Errno 21] Is a directory"
  | nameTooLong => "[Errno 36] File name too long"
  | unnameable => "embedded null byte"

/-- A trouble with the place as it was written. -/
structure Error where
  trouble : Trouble
  shown : String
deriving DecidableEq, Repr

/-- The wording of an error. -/
def Error.message (error : Error) : String :=
  error.trouble.message ++ ": " ++ Text.quoted error.shown

/-- What comes of a file that a device is to hold. -/
inductive Delivery where
  /-- All of it gets to its place. -/
  | whole
  /-- The device breaks off: only so many octets of it do, or it is not even opened. -/
  | cut (count : Option Nat) (reason : String)

/-- What a device makes of each file that is written to it. -/
abbrev Device := Path → List UInt8 → Delivery

/-- The device that never breaks off. -/
def Device.sound : Device := fun _ _ => .whole

/-- What stands at a path. The top is always a directory. -/
def item? (disk : Disk) : Path → Option Item
  | [] => some .directory
  | path => Assoc.find? path disk.items

/-- Puts a file or directory at a path. -/
def put (disk : Disk) (path : Path) (item : Item) : Disk :=
  ⟨Assoc.put path item disk.items⟩

/-- Takes away what stands at a path. -/
def erase (disk : Disk) (path : Path) : Disk :=
  ⟨Assoc.erase path disk.items⟩

/-- The files below a directory, by their paths from there. -/
def filesUnder (disk : Disk) (root : Path) : List (Path × List UInt8) :=
  disk.items.filterMap fun
    | (path, .file octets) =>
        if root.isPrefixOf path then some (path.drop root.length, octets) else none
    | (_, .directory) => none

/-- How many octets a name may have. -/
def maxName : Nat := 255

/-- How many octets a route may have. -/
def maxRoute : Nat := 4095

/-- Whether the last name of a path, or the whole path, is too long. -/
def isTooLong (path : Path) : Bool :=
  maxName < path.name.utf8ByteSize || maxRoute < path.text.utf8ByteSize

/-- Walks parts of a route from a path. -/
def walk (disk : Disk) (path : Path) : List String → Except Trouble Path
  | [] => .ok path
  | part :: rest =>
      match disk.item? path with
      | some .directory =>
          if maxName < part.utf8ByteSize then .error .nameTooLong
          else disk.walk (path.step part) rest
      | some (.file _) => .error .notDirectory
      | none => .error .missing

/-- The path at the end of a route from a directory. -/
def locate (disk : Disk) (base : Path) (route : Route) : Except Trouble Path :=
  if !route.isNameable then .error .unnameable
  else if maxRoute < route.text.utf8ByteSize then .error .nameTooLong
  else disk.walk [] (route.under base).parts

/-- What stands at the end of a route, if anything. -/
def lookup (disk : Disk) (base : Path) (route : Route) : Except Trouble Item := do
  match disk.item? (← disk.locate base route) with
  | some item => .ok item
  | none => .error .missing

/-- Whether anything stands at the end of a route. That nothing does has many reasons, but a
name that is too long leaves the question open. -/
def holds (disk : Disk) (base : Path) (route : Route) : Except Error Bool :=
  match disk.lookup base route with
  | .ok _ => .ok true
  | .error .nameTooLong => .error ⟨.nameTooLong, route.text⟩
  | .error _ => .ok false

/-- Reads the file at the end of a route. -/
def read (disk : Disk) (base : Path) (route : Route) : Except Error (List UInt8) :=
  match disk.lookup base route with
  | .ok (.file octets) => .ok octets
  | .ok .directory => .error ⟨.isDirectory, route.text⟩
  | .error trouble => .error ⟨trouble, route.text⟩

/-- Writes the file at the end of a route. -/
def write (disk : Disk) (base : Path) (route : Route) (octets : List UInt8) :
    Except Error Disk :=
  match disk.locate base route with
  | .ok path =>
      match disk.item? path with
      | some .directory => .error ⟨.isDirectory, route.text⟩
      | _ => .ok (disk.put path (.file octets))
  | .error trouble => .error ⟨trouble, route.text⟩

/-- Makes the directory at the end of a route, unless it is there. -/
def makeDirectory (disk : Disk) (base : Path) (route : Route) : Except Error Disk :=
  match disk.locate base route with
  | .ok path =>
      match disk.item? path with
      | some .directory => .ok disk
      | some (.file _) => .error ⟨.occupied, route.text⟩
      | none => .ok (disk.put path .directory)
  | .error trouble => .error ⟨trouble, route.text⟩

/-- Makes the directory at the end of the first `count` parts of a route. Where a
directory on the way is missing, the shorter route is made first; what was made stays. -/
def makeDirectoriesTo (disk : Disk) (base : Path) (route : Route) : (count : Nat) →
    Disk × Except Error Unit
  | 0 => (disk, .ok ())
  | count + 1 =>
      let here := { route with parts := route.parts.take (count + 1) }
      match disk.makeDirectory base here with
      | .ok disk => (disk, .ok ())
      | .error ⟨.missing, _⟩ =>
          match disk.makeDirectoriesTo base route count with
          | (disk, .error cause) => (disk, .error cause)
          | (disk, .ok ()) =>
              match disk.makeDirectory base here with
              | .ok disk => (disk, .ok ())
              | .error cause => (disk, .error cause)
      | .error cause => (disk, .error cause)

/-- Makes the directory at the end of a route and those on the way. -/
def makeDirectories (disk : Disk) (base : Path) (route : Route) : Disk × Except Error Unit :=
  disk.makeDirectoriesTo base route route.parts.length

/-- Puts a file at a path, together with the directories that hold it. -/
def place (disk : Disk) (path : Path) (octets : List UInt8) : Disk :=
  match disk.makeDirectories [] (.ofPath path.parent) with
  | (disk, .ok ()) => disk.put path (.file octets)
  | (_, .error _) => disk

end Disk

end EditGate

import EditGate.Disk
import EditGate.Text.Lowercase
import EditGate.Text.Utf8
import EditGate.Value.Numeric

/-!
# Workspaces

A workspace is a directory. Files are named by routes from it; a route that leads outside
is refused, and all routes to one file have the same key.

A file is written beside its place first and then moved there, so that it is never half
written.
-/

namespace EditGate

/-- A directory to work in. -/
structure Workspace where
  root : Path
  /-- The way to it does not climb. -/
  root_normal : ".." ∉ root

namespace Workspace

/-- The workspace at a path. Where the path climbs, the shorter one is taken. -/
def ofPath (path : Path) : Workspace where
  root := (Route.ofPath path).resolve []
  root_normal := Path.notMem_foldl_step List.not_mem_nil path

/-- Why a name leads to no file. -/
inductive Refusal where
  /-- It leads outside. -/
  | outside (workspace : Workspace) (name : String)
  /-- It holds a zero character, which no name can. -/
  | unnameable

/-- The wording of a refusal. -/
def Refusal.message : Refusal → String
  | outside workspace name => s!"{name} is outside the workspace " ++ workspace.root.text
  | unnameable => Disk.Trouble.unnameable.message

/-- The path of a file. -/
def resolve (workspace : Workspace) (name : String) : Except Refusal Path :=
  let route := Route.ofText name
  let path := route.resolve workspace.root
  if !route.isNameable then .error .unnameable
  else if workspace.root.isPrefixOf path then .ok path
  else .error (.outside workspace name)

/-- A path from the workspace as text. -/
def keyText : Path → String
  | [] => "."
  | parts => "/".intercalate parts

/-- The key of a file: its path from the workspace. -/
def key (workspace : Workspace) (name : String) : Except Refusal String :=
  (workspace.resolve name).map fun path => keyText (path.drop workspace.root.length)

/-- Why a file cannot be read. -/
inductive ReadError where
  /-- The name leads to no file. -/
  | refused (cause : Refusal)
  /-- There is no such file. -/
  | disk (cause : Disk.Error)
  /-- It is no text. -/
  | undecodable (fault : Utf8.Fault)

/-- The wording of an error. -/
def ReadError.message : ReadError → String
  | refused cause => cause.message
  | disk cause => cause.message
  | undecodable fault => fault.message

/-- Reads a file as text. -/
def read (workspace : Workspace) (disk : Disk) (name : String) :
    Except ReadError (List Char) := do
  let path ← (workspace.resolve name).mapError .refused
  let octets ← (disk.read [] (.ofPath path)).mapError .disk
  (Utf8.decodeUnmarked octets).mapError .undecodable

/-- Why a file cannot be written. -/
inductive WriteError where
  /-- The name leads to no file. -/
  | refused (cause : Refusal)
  /-- The directory does not exist. -/
  | noAccess (directory : Path)
  /-- The place beside it cannot be written, or not be cleared. -/
  | blocked (cause : Disk.Error)
  /-- The file beside it cannot be made. -/
  | unwritable (cause : Disk.Error)
  /-- The device breaks off in the file beside it. -/
  | broken (reason : String)
  /-- The file beside it cannot be moved to its place. -/
  | unmovable (source target : Path)

/-- The wording of an error. -/
def WriteError.message : WriteError → String
  | refused cause => cause.message
  | noAccess directory => "No write access to " ++ directory.text
  | blocked cause => cause.message
  | unwritable cause => "Atomic write failed: " ++ cause.message
  | broken reason => "Atomic write failed: " ++ reason
  | unmovable source target =>
      "Atomic write failed: " ++ Disk.Error.message ⟨.isDirectory, source.text⟩ ++ " -> " ++
        Text.quoted target.text

/-- The ending of the file that is written beside another. -/
def besideEnding : String := ".luaguard.tmp"

/-- Writes octets to a path of a device by way of the file beside it, which is gone afterwards
unless it could not be written at all. -/
def replaceOn (device : Disk.Device) (disk : Disk) (path : Path) (octets : List UInt8) :
    Disk × Except WriteError Unit :=
  let beside := path.extendName besideEnding
  match disk.lookup [] (.ofPath path.parent) with
  | .error _ => (disk, .error (.noAccess path.parent))
  | .ok (.file _) => (disk, .error (.unwritable ⟨.notDirectory, beside.text⟩))
  | .ok .directory =>
      if Disk.isTooLong beside then (disk, .error (.blocked ⟨.nameTooLong, beside.text⟩))
      else if disk.item? beside = some .directory then
        (disk, .error (.blocked ⟨.isDirectory, beside.text⟩))
      else match device beside octets with
        | .cut _ reason => (disk.erase beside, .error (.broken reason))
        | .whole =>
            if disk.item? path = some .directory then
              (disk.erase beside, .error (.unmovable beside path))
            else ((disk.erase beside).put path (.file octets), .ok ())

/-- Writes a text to a file of a device. -/
def writeOn (workspace : Workspace) (device : Disk.Device) (disk : Disk) (name : String)
    (text : List Char) : Disk × Except WriteError Unit :=
  match workspace.resolve name with
  | .error cause => (disk, .error (.refused cause))
  | .ok path => replaceOn device disk path (Utf8.encode text)

/-- Writes a text to a file, with nothing that breaks off. -/
def write (workspace : Workspace) (disk : Disk) (name : String) (text : List Char) :
    Disk × Except WriteError Unit :=
  workspace.writeOn .sound disk name text

/-- The ending of a name: from its last dot on, unless that is the first or the last
character. -/
def ending (name : String) : String :=
  let chars := name.toList
  let tail := (chars.reverse.takeWhile (· != '.')).reverse
  if tail.isEmpty || chars.length ≤ tail.length + 1 then "" else String.ofList ('.' :: tail)

/-- The files of the workspace with one of the endings, in whatever case, in the order of
their components. -/
def candidates (workspace : Workspace) (disk : Disk) (endings : List String) : List Path :=
  let wanted := endings.map Text.lower
  let paths := (disk.filesUnder workspace.root).map Prod.fst
  (paths.filter fun path => wanted.contains (Text.lower (ending path.name))).mergeSort Path.notAfter

/-- Why files cannot be looked for. -/
inductive DiscoverError where
  /-- An ending is no text. -/
  | endingNotText
  /-- There are files, and how deep to go is no number. -/
  | depthNotNumber

/-- The files of the workspace with one of the endings that are at most `depth` components
away. -/
def discover (workspace : Workspace) (disk : Disk) (endings : List Value) (depth : Value) :
    Except DiscoverError (List Path) :=
  match endings.mapM Value.text? with
  | none => .error .endingNotText
  | some endings =>
      match workspace.candidates disk endings, depth.number? with
      | [], _ => .ok []
      | _ :: _, none => .error .depthNotNumber
      | paths, some depth =>
          .ok (paths.filter fun path => !depth.less (.whole path.length))

end Workspace

end EditGate

import EditGate.Command.Place
import EditGate.Console.Plain
import EditGate.Disk.Change
import Std.Time.DateTime.Timestamp

/-!
# The program

Loads the part of the disk that a run depends on, runs the command, shows what comes of it
and makes the changes. All decisions are those of the run.
-/

namespace EditGate.Program

/-- The present, in seconds. -/
def now : IO Binary64 := do
  let moment ← Std.Time.Timestamp.now
  return .ofRatio false moment.toNanosecondsSinceUnixEpoch.toInt.toNat 1000000000

/-- Loads what stands at a path, and below it down to a depth. What cannot be read is passed
over. -/
def load (depth : Nat) (path : Path) (disk : Disk) : IO Disk := do
  try
    let place ← IO.FS.realPath path.text
    if ← place.isDir then
      let disk := disk.put path .directory
      match depth with
      | 0 => return disk
      | depth + 1 =>
          (← place.readDir).foldlM (fun disk entry => load depth (path ++ [entry.fileName]) disk)
            disk
    else return disk.put path (.file (← IO.FS.readBinFile place).toList)
  catch _ => return disk

/-- Loads what a route passes, and what stands at its end and below it down to a depth. -/
def loadRoute (here : Path) (depth : Nat) (disk : Disk) (route : Route) : IO Disk := do
  let parts := (route.under here).parts
  let disk ← (List.range parts.length).foldlM
    (fun disk count => load 0 ((parts.take count).foldl Path.step []) disk) disk
  load depth (parts.foldl Path.step []) disk

/-- The host of the program. -/
def host : Command.Host := .usual

/-- Loads all that a run depends on: first the settings, then what they lead to. -/
def loadFor (here : Path) (invocation : Invocation) : IO Disk := do
  let settings ← loadRoute here 0 ⟨[]⟩ (Command.settingsRoute here invocation)
  (Command.routes host settings here invocation).foldlM
    (loadRoute here (Command.reach invocation.command)) settings

/-- Makes a change. A file is written beside its place and then moved there. -/
def make : Disk.Change → IO Unit
  | .make path => IO.FS.createDirAll path.text
  | .write path octets => do
      let beside := path.extendName Workspace.besideEnding
      IO.FS.writeBinFile beside.text ⟨octets.toArray⟩
      IO.FS.rename beside.text path.text
  | .remove path => IO.FS.removeFile path.text

/-- Shows an item. Behind a prompt the line goes on. -/
def draw (item : Console.Item) : IO Unit := do
  let text := "\n".intercalate item.plain
  match item with
  | .prompt _ => IO.print text
  | _ => IO.println text

/-- An answer to a prompt, unless the input has ended. -/
def answer? : IO (Option String) := do
  let line ← (← IO.getStdin).getLine
  return if line.isEmpty then none else some (line.dropEndWhile (· == '\n')).copy

/-- Runs a command and shows what comes of it. A run that lacks an answer is taken up again
with it, where it left off. -/
partial def converse (situation : Command.Situation) (arguments : List String) (shown : Nat) :
    IO Command.Outcome := do
  let outcome := Command.run situation arguments
  (outcome.items.drop shown).forM draw
  (← IO.getStdout).flush
  match outcome.ending with
  | .fault .noAnswer =>
      match ← answer? with
      | some answer =>
          converse { situation with answers := situation.answers ++ [some answer] } arguments
            outcome.items.length
      | none => return outcome
  | _ => return outcome

end EditGate.Program

open EditGate in
/-- The command line. -/
def main (arguments : List String) : IO UInt32 := do
  let here := (Route.ofText (← IO.currentDir).toString).resolve []
  let invocation? := (Invocation.ofArguments arguments).toOption
  let disk ← match invocation? with
    | some invocation => Program.loadFor here invocation
    | none => pure ⟨[]⟩
  let input ←
    if invocation?.any fun invocation => Command.readsInput invocation.command then
      (← IO.getStdin).readToEnd
    else pure ""
  let situation : Command.Situation := {
    host := Program.host
    disk := disk
    here := here
    input := input.toList
    answers := []
    now := ← Program.now }
  let outcome ← Program.converse situation arguments 0
  (disk.changes outcome.disk).forM Program.make
  match outcome.ending with
  | .exit code => return code.number.toUInt32
  | .fault cause =>
      IO.eprintln cause.message
      return 1

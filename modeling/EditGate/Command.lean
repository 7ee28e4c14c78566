import EditGate.Assoc
import EditGate.Command.Argument
import EditGate.Edit
import EditGate.Text.Numeral

/-!
# Commands

What the program can be asked to do: check files, edit a file, take edits back and list
the recorded edits. Arguments that ask for help or for the version end the program with
success, arguments that make no sense with a failure; whichever comes first counts.

A double dash that is attached to a flag as its value is taken out, and leaves the flag with
an empty list. What that means is up to each command.
-/

namespace EditGate

/-- Where the new text of an edit comes from. -/
inductive TextSource where
  /-- From the arguments, where it may be missing. -/
  | given (payload : Value)
  | file (name : String)
  | input

/-- A request to edit a file. -/
structure EditRequest where
  file : String
  /-- The operation, unless it was taken out. -/
  operation : Option Operation
  /-- The first line, unless it was taken out. -/
  first : Option Int
  last : Value
  source : TextSource
  dryRun : Bool
  acceptFix : Bool
  showDiff : Bool
  json : Bool
  yes : Bool

/-- What the program is asked to do. -/
inductive Command where
  | check (path : String) (endings : List Value) (json snippets : Bool)
  | edit (request : EditRequest)
  | undo (file : String) (steps : Value) (yes : Bool)
  | history (file : String)

/-- A command with the place it is about. -/
structure Invocation where
  /-- The directory to work in, unless it was taken out. -/
  workspace : Option String
  /-- The file with the settings, if it is not the usual one. -/
  settings : Option String
  command : Command

namespace Command

/-- The exit codes of the program. -/
inductive ExitCode where
  | success
  /-- Something was found invalid. -/
  | invalid
  /-- Something could not be done. -/
  | usage
deriving DecidableEq, Repr

/-- An exit code as a number. -/
def ExitCode.number : ExitCode → Nat
  | success => 0
  | invalid => 1
  | usage => 2

private def helpFlag : Flag := { name := "--help", short := some "-h" }

private def yesFlag : Flag := { name := "--yes", short := some "-y" }

/-- The flags before the command. -/
def headingFlags : List Flag :=
  [helpFlag, { name := "--version", short := some "-v" },
    { name := "--workspace", short := some "-w", takesValue := true },
    { name := "--config", short := some "-c", takesValue := true }]

/-- The flags of each command. -/
def commandFlags? : (command : String) → Option (List Flag)
  | "check" =>
      some [helpFlag, { name := "--ext", takesValue := true }, { name := "--json" },
        { name := "--no-snippets" }]
  | "edit" =>
      some [helpFlag, { name := "--op", takesValue := true },
        { name := "--line", takesValue := true }, { name := "--end", takesValue := true },
        { name := "--text", takesValue := true }, { name := "--text-file", takesValue := true },
        { name := "--dry-run" }, { name := "--accept-fix" }, { name := "--diff" },
        { name := "--json" }, yesFlag]
  | "undo" => some [helpFlag, { name := "--steps", takesValue := true }, yesFlag]
  | "history" => some [helpFlag]
  | _ => none

/-- What was read so far: the flags with their values, the endings of names, the positional
argument, and whether an argument was left over. -/
structure Draft where
  values : Assoc String Value := []
  endings : List Value := []
  target : Option String := none
  hasExtra : Bool := false

namespace Draft

/-- Whether a flag was given. -/
def has (draft : Draft) (name : String) : Bool :=
  (Assoc.find? name draft.values).isSome

/-- The value of a flag. -/
def value? (draft : Draft) (name : String) : Option Value :=
  Assoc.find? name draft.values

/-- The value of a flag, or nothing. -/
def valueD (draft : Draft) (name : String) : Value :=
  (draft.value? name).getD .null

/-- Whether a flag may have a value by itself. -/
def isValueOf (name value : String) : Bool :=
  match name with
  | "--line" | "--end" | "--steps" => (Text.readInt? value.toList).isSome
  | "--op" => ["insert", "replace", "delete"].contains value
  | _ => true

/-- Whether a flag may be given beside those given so far. -/
def admits (draft : Draft) : (name : String) → Bool
  | "--text" => !draft.has "--text-file"
  | "--text-file" => !draft.has "--text"
  | _ => true

/-- What the value of a flag means: a number, a text, or an empty list if it was taken
out. -/
def meaning (name value : String) : Value :=
  if value = "--" then .list []
  else match name with
    | "--line" | "--end" | "--steps" =>
        ((Text.readInt? value.toList).map Value.int).getD .null
    | _ => .str value

/-- Takes one step. Help and version end the program. -/
def add (draft : Draft) : Step → Except ExitCode Draft
  | .extra => .ok { draft with hasExtra := true }
  | .positional text => .ok { draft with target := some text }
  | .flag name value =>
      let value := value.getD ""
      let meant := meaning name value
      if name = "--help" ∨ name = "--version" then .error .success
      else if !draft.admits name || (value != "--" && !isValueOf name value) then .error .usage
      else if name = "--ext" then .ok { draft with endings := draft.endings ++ [meant] }
      else .ok { draft with values := Assoc.put name meant draft.values }

/-- Takes steps one after the other. -/
def addAll (draft : Draft) (steps : List Step) : Except ExitCode Draft :=
  steps.foldlM add draft

/-- Where the new text of an edit comes from. -/
def source (draft : Draft) : TextSource :=
  match draft.valueD "--text-file" with
  | .str "-" => .input
  | .str name => if name.isEmpty then .given (draft.valueD "--text") else .file name
  | _ => .given (draft.valueD "--text")

/-- The first line of an edit, which has to be given. -/
def first? (draft : Draft) : Option (Option Int) :=
  (draft.value? "--line").map fun
    | .int line => some line
    | _ => none

/-- The command of a given name, if all that it needs is there. -/
def command? (draft : Draft) (name : String) : Option Command := do
  let target ← draft.target
  match name with
  | "check" => some (.check target draft.endings (draft.has "--json") !(draft.has "--no-snippets"))
  | "edit" =>
      let operation ← draft.value? "--op"
      let first ← draft.first?
      some (.edit {
        file := target, operation := Operation.ofValue? operation, first := first,
        last := draft.valueD "--end", source := draft.source, dryRun := draft.has "--dry-run",
        acceptFix := draft.has "--accept-fix", showDiff := draft.has "--diff",
        json := draft.has "--json", yes := draft.has "--yes" })
  | "undo" => some (.undo target ((draft.value? "--steps").getD (.int 1)) (draft.has "--yes"))
  | "history" => some (.history target)
  | _ => none

end Draft

/-- Reads the arguments behind the name of a command. -/
def ofArguments (name : String) (arguments : List String) : Except ExitCode Command :=
  match commandFlags? name with
  | none => .error .usage
  | some flags =>
      match classifyAll? flags arguments with
      | none => .error .usage
      | some words => do
          let reading := read flags true words
          let draft ← Draft.addAll {} reading.steps
          match draft.command? name with
          | some command =>
              if reading.broken || draft.hasExtra then .error .usage else .ok command
          | none => .error .usage

end Command

/-- Reads all arguments of the program. -/
def Invocation.ofArguments (arguments : List String) : Except Command.ExitCode Invocation :=
  match Command.classifyAll? Command.headingFlags arguments with
  | none => .error .usage
  | some words => do
      let heading := Command.readHeading Command.headingFlags (arguments.zip words)
      let draft ← Command.Draft.addAll {} heading.steps
      match heading.rest with
      | name :: rest =>
          let command ← Command.ofArguments name rest
          if draft.hasExtra then .error .usage
          else .ok ⟨((draft.value? "--workspace").getD (.str ".")).text?,
            (draft.valueD "--config").text?.filter (!·.isEmpty), command⟩
      | [] => .error .usage

end EditGate

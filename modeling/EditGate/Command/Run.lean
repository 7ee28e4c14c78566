import EditGate.Command
import EditGate.Command.Host
import EditGate.Console.Report
import EditGate.Console.Table
import EditGate.Gate
import EditGate.Gate.Summary

/-!
# Running commands

A run of the program as a function: from a disk, the arguments, what the user types and the
host to what is shown, how the program ends and the disk that it leaves. Every write asks
first unless it is told not to, and the history is loaded before and stored after it. A run
breaks off where something cannot be shown.
-/

namespace EditGate.Command

open Console

/-- What a run goes on from. -/
structure Situation where
  host : Host
  disk : Disk
  /-- The current directory. -/
  here : Path
  /-- What can be read from standard input. -/
  input : List Char
  /-- What the user answers to prompts; nothing stands for breaking off. -/
  answers : List (Option String)
  now : Binary64
  /-- What was shown already, the latest first. -/
  shown : List Item := []

/-- What stops the program short. -/
inductive Fault where
  /-- The directory to work in was taken out of the arguments. -/
  | noWorkspace
  /-- The operation of an edit was taken out of the arguments. -/
  | noOperation
  /-- The first line of an edit was taken out of the arguments. -/
  | noLine
  /-- The file with the settings cannot be judged. -/
  | settings (cause : Settings.Fault)
  /-- The log cannot be set up at the level of the settings. -/
  | log (level : String)
  /-- The settings make no policy. -/
  | noPolicy
  /-- The stored history cannot be loaded. -/
  | load (cause : Gate.LoadError)
  /-- The source files cannot be looked for. -/
  | discover (cause : Workspace.DiscoverError)
  /-- The new text of an edit is no text. -/
  | undecodable (cause : Utf8.Fault)
  /-- There is no more answer. -/
  | noAnswer
  /-- A place cannot be looked at. -/
  | disk (cause : Disk.Error)
  /-- The history cannot be stored. -/
  | save (cause : Gate.SaveError)
  /-- The request makes no sense. -/
  | gate (cause : Gate.Fault)
  /-- The recorded edits make no table. -/
  | table (cause : Console.Error)
  /-- The console cannot show something. -/
  | unshown (item : Item)

/-- The wording of a fault. -/
def Fault.message : Fault → String
  | noWorkspace => "The workspace must be a path"
  | noOperation => "The operation must be insert, replace or delete"
  | noLine => "The first line must be a number"
  | settings (.disk cause) => cause.message
  | settings (.undecodable cause) => cause.message
  | settings (.scalar _) => "A value of the config has no meaning"
  | log level => s!"The log cannot be set up at level {level}"
  | noPolicy => "The settings do not fit the rules"
  | load (.disk cause) => cause.message
  | load (.undecodable cause) => cause.message
  | load .outOfRange => History.ArchiveError.outOfRange.message
  | load .tooDeep => History.ArchiveError.tooDeep.message
  | load .halfPair => History.ArchiveError.halfPair.message
  | discover .endingNotText => "extensions must be strings"
  | discover .depthNotNumber => "The depth must be a number"
  | undecodable cause => cause.message
  | noAnswer => "There is no answer to the prompt"
  | disk cause => cause.message
  | save cause => cause.message
  | gate .unnameable => Disk.Trouble.unnameable.message
  | gate (.edit cause) => cause.message
  | gate (.history cause) => cause.message
  | table .notObject => "A recorded edit must be an object"
  | table (.missing field) => s!"A recorded edit has no {field}"
  | table (.timestamp cause) => cause.message
  | unshown _ => "The console cannot show something"

/-- How a run ends. -/
inductive Ending where
  | exit (code : ExitCode)
  | fault (cause : Fault)

/-- What comes of a run. -/
structure Outcome where
  items : List Item
  ending : Ending
  disk : Disk

/-- A run that ends here. -/
def finish (situation : Situation) (ending : Ending) : Outcome :=
  ⟨situation.shown.reverse, ending, situation.disk⟩

/-- A run that a fault stops. -/
def stop (situation : Situation) (cause : Fault) : Outcome :=
  finish situation (.fault cause)

/-- Shows items and goes on, unless one of them cannot be shown. -/
def showing (situation : Situation) (next : Situation → Outcome) : List Item → Outcome
  | [] => next situation
  | item :: rest =>
      if situation.host.shows situation.shown item then
        showing { situation with shown := item :: situation.shown } next rest
      else stop situation (.unshown item)

/-- A run that ends with one text. -/
def say (situation : Situation) (code : ExitCode) (text : String) : Outcome :=
  showing situation (finish · (.exit code)) [.text text]

/-- The remark on a request that is not carried out. -/
def failureText (failure : Gate.Failure) : String :=
  s!"[bold red]{failure.status}:[/bold red] {failure.message}"

/-- Asks before a write and goes on only with a yes. -/
def confirmed (situation : Situation) (question : String) (skip : Bool)
    (next : Situation → Outcome) : Outcome :=
  if skip then next situation
  else
    let answered (situation : Situation) : Outcome :=
      match situation.answers with
      | [] => stop situation .noAnswer
      | none :: _ => say situation .invalid "\n[bold red]Terminated by user.[/bold red]"
      | some answer :: _ =>
          if Text.lower answer == "y" then next situation
          else say situation .success "[bold red]Operation cancelled by user.[/bold red]"
    showing situation answered [.prompt s!"\n[bold yellow]{question} (y/N): [/bold yellow]"]

/-! ### Checking -/

/-- What is shown of the verdict on one file. -/
def checkItems (snippets : Bool) (check : Gate.Check) : List Item :=
  match check.outcome with
  | .ok report => if report.valid then [] else reportItems report check.name snippets
  | .error failure => [.text s!"[bold red]Error in {check.name}:[/bold red] {failure.message}"]

/-- What is shown of the verdicts on files as a whole. -/
def overviewItems (checks : List Gate.Check) : List Item :=
  let values := checks.map Gate.Check.toValue
  let panel := match Summary.ofReports (.list values) with
    | .ok summary => (summaryPanel summary.toValue).toOption.toList
    | .error _ => []
  verdictTable values :: panel

/-- What is shown of the verdicts on files. -/
def checksItems (checks : List Gate.Check) (json snippets : Bool) : List Item :=
  if json then [.json (.list (checks.map Gate.Check.toValue))]
  else checks.flatMap (checkItems snippets) ++ overviewItems checks

/-- How deep a check goes. -/
def checkDepth : Nat := 10

/-- Judges a file, or the files of a directory. -/
def checks (settings : Settings) (disk : Disk) (target : Path) (item : Disk.Item) :
    Except Fault (List Gate.Check) :=
  let root := match item with
    | .file _ => target.parent
    | .directory => target
  match Gate.ofSettings? (.ofPath root) settings with
  | none => .error .noPolicy
  | some gate =>
      match item with
      | .file _ => .ok [gate.verdict disk target.name]
      | .directory => (gate.scan disk (.int checkDepth)).mapError .discover

/-- Checks a file or a directory. -/
def runCheck (situation : Situation) (settings : Settings) (path : String)
    (endings : List Value) (json snippets : Bool) : Outcome :=
  let route := Route.ofText path
  let target := route.resolve situation.here
  if !route.isNameable then stop situation (.gate .unnameable)
  else match situation.disk.lookup [] (.ofPath target) with
  | .error .nameTooLong => stop situation (.disk ⟨.nameTooLong, target.text⟩)
  | .error _ => say situation .usage s!"[bold red]Error:[/bold red] Path '{path}' not found."
  | .ok item =>
      let settings :=
        if endings.isEmpty then settings else { settings with extensions := endings }
      match checks settings situation.disk target item with
      | .error cause => stop situation cause
      | .ok [] =>
          say situation .success "\n[bold yellow]⚠️  No Lua files found.[/bold yellow]"
      | .ok checks =>
          let code := if checks.all Gate.Check.success then ExitCode.success else .invalid
          showing situation (finish · (.exit code)) (checksItems checks json snippets)

/-! ### Editing -/

/-- The new text of an edit, as data. -/
def newText (situation : Situation) : TextSource → Except Workspace.ReadError Value
  | .given payload => .ok payload
  | .input => .ok (.str (String.ofList situation.input))
  | .file name => do
      let octets ← (situation.disk.read situation.here (.ofText name)).mapError .disk
      let text ← (Utf8.decode octets).mapError .undecodable
      .ok (.str (String.ofList (Utf8.normalizeBreaks text)))

/-- What is shown of a trial. -/
def trialItems (request : EditRequest) (trial : Gate.Trial) : List Item :=
  if request.json then [.json trial.report.toValue]
  else
    (if request.showDiff then
      [differenceItem trial.text trial.report.candidate request.file] else []) ++
      reportItems trial.report request.file true

/-- What is shown of the repair that is taken. -/
def repairItems (request : EditRequest) (trial : Gate.Trial) : List Item :=
  match trial.report.fixed with
  | some fixed =>
      if !trial.report.valid && request.showDiff && !request.json then
        [differenceItem trial.text fixed request.file]
      else []
  | none => []

/-- Carries an edit out and stores the history. -/
def commitEdit (situation : Situation) (gate : Gate) (request : EditRequest) (edit : Edit) :
    Outcome :=
  match gate.applyOn situation.host.device situation.disk situation.now request.file edit
      { acceptFix := request.acceptFix } with
  | .error cause => stop situation (.gate cause)
  | .ok (_, disk, .error failure) =>
      say { situation with disk := disk } .usage (failureText failure)
  | .ok (gate, disk, .ok application) =>
      if application.written then
        let kind := if application.repaired then "auto-fixed edit" else "edit"
        match gate.saveOn situation.host.device disk with
        | (disk, .error cause) => stop { situation with disk := disk } (.save cause)
        | (disk, .ok ()) =>
            say { situation with disk := disk } .success
              s!"[bold green]✅ Committed {kind} to {application.key}[/bold green]"
      else
        let message := (application.writeError?.map Workspace.WriteError.message).getD ""
        let code := if application.writeError?.isSome then ExitCode.usage else .invalid
        say { situation with disk := disk } code
          s!"[bold red]{application.status}:[/bold red] {message}"

/-- Goes on after a trial. -/
def runTrial (gate : Gate) (request : EditRequest) (edit : Edit) (trial : Gate.Trial)
    (situation : Situation) : Outcome :=
  if (Gate.accepted trial.report request.acceptFix).isNone then
    say situation .invalid "[bold red]Edit rejected; nothing was written.[/bold red]"
  else
    let next (situation : Situation) : Outcome :=
      if request.dryRun then
        say situation .success "[dim]Dry run: nothing was written.[/dim]"
      else confirmed situation s!"Apply edit to {request.file}?" request.yes
        (commitEdit · gate request edit)
    showing situation next (repairItems request trial)

/-- Tries an edit and goes on after it. -/
def runEditWith (situation : Situation) (gate : Gate) (request : EditRequest) (edit : Edit) :
    Outcome :=
  match gate.trial situation.disk request.file edit with
  | .error cause => stop situation (.gate cause)
  | .ok (.error failure) => say situation .usage (failureText failure)
  | .ok (.ok trial) =>
      showing situation (runTrial gate request edit trial) (trialItems request trial)

/-- Edits a file. A missing line is noticed only once the file was read. -/
def runEdit (situation : Situation) (gate : Gate) (request : EditRequest) : Outcome :=
  match newText situation request.source with
  | .error (.undecodable cause) => stop situation (.undecodable cause)
  | .error (.disk ⟨.unnameable, _⟩) => stop situation (.gate .unnameable)
  | .error cause =>
      say situation .usage
        s!"[bold red]Error:[/bold red] Unable to read new text: {cause.message}"
  | .ok payload =>
      match request.operation, request.first with
      | none, _ => stop situation .noOperation
      | some operation, some first =>
          runEditWith situation gate request ⟨operation, first, request.last, payload⟩
      | some _, none =>
          match gate.text situation.disk request.file with
          | .error cause => stop situation (.gate cause)
          | .ok (.error failure) => say situation .usage (failureText failure)
          | .ok (.ok _) => stop situation .noLine

/-! ### Undoing and listing -/

/-- Takes edits back and stores the history. -/
def commitUndo (situation : Situation) (gate : Gate) (file : String) (steps : Value) : Outcome :=
  match gate.rollbackOn situation.host.device situation.disk file steps with
  | .error cause => stop situation (.gate cause)
  | .ok (_, disk, .error failure) =>
      say { situation with disk := disk } .invalid (failureText failure)
  | .ok (gate, disk, .ok undone) =>
      match gate.saveOn situation.host.device disk with
      | (disk, .error cause) => stop { situation with disk := disk } (.save cause)
      | (disk, .ok ()) =>
          say { situation with disk := disk } .success
            (s!"[bold green]⏪ Rolled back {undone.steps.display} edit(s) on {file}; " ++
              s!"{undone.remaining} left in history[/bold green]")

/-- Takes edits of a file back. -/
def runUndo (situation : Situation) (gate : Gate) (file : String) (steps : Value) (yes : Bool) :
    Outcome :=
  confirmed situation s!"Undo {steps.display} edit(s) on {file}?" yes
    (commitUndo · gate file steps)

/-- Lists the recorded edits of a file. -/
def runHistory (situation : Situation) (gate : Gate) (file : String) : Outcome :=
  match gate.summaries file with
  | .error .unnameable => stop situation (.gate .unnameable)
  | .error cause => say situation .usage ("[bold red]Error:[/bold red] " ++ cause.message)
  | .ok [] => say situation .success s!"[dim]No recorded edits for {file}.[/dim]"
  | .ok entries =>
      match historyTable entries file with
      | .ok item => showing situation (finish · (.exit .success)) [item]
      | .error cause => stop situation (.table cause)

/-! ### The program -/

/-- Runs what needs a gate, with the stored history. -/
def runGated (situation : Situation) (root : Path) (settings : Settings) (next : Gate → Outcome) :
    Outcome :=
  match Gate.ofSettings? (.ofPath root) settings with
  | none => stop situation .noPolicy
  | some gate =>
      match gate.load situation.host.nesting situation.disk with
      | .error cause => stop situation (.load cause)
      | .ok (gate, _) => next gate

/-- Runs a command in a workspace. -/
def runIn (situation : Situation) (root : Path) (settings : Settings) : Command → Outcome
  | .check path endings json snippets => runCheck situation settings path endings json snippets
  | .edit request =>
      runGated situation root settings fun gate => runEdit situation gate request
  | .undo file steps yes =>
      runGated situation root settings fun gate => runUndo situation gate file steps yes
  | .history file => runGated situation root settings fun gate => runHistory situation gate file

/-- The route to the workspace, if there is one. -/
def workspaceRoute (invocation : Invocation) : Route :=
  .ofText (invocation.workspace.getD ".")

/-- The directory of the workspace. -/
def rootOf (here : Path) (invocation : Invocation) : Path :=
  (workspaceRoute invocation).resolve here

/-- The route to the settings. -/
def settingsRoute (here : Path) (invocation : Invocation) : Route :=
  match invocation.settings with
  | some name => .ofText name
  | none => .ofPath (rootOf here invocation ++ [Settings.fileName])

/-- Runs the program with arguments that make sense. The log is set up as soon as the settings
are known. -/
def runInvocation (situation : Situation) (invocation : Invocation) : Outcome :=
  let root := rootOf situation.here invocation
  if invocation.workspace.isNone then stop situation .noWorkspace
  else if !(workspaceRoute invocation).isNameable then stop situation (.gate .unnameable)
  else match Settings.ofDisk situation.host.document situation.disk situation.here
      (settingsRoute situation.here invocation) with
    | .error cause => stop situation (.settings cause)
    | .ok (_, .error error) =>
        say situation .usage ("[bold red]CONFIG ERROR:[/bold red] " ++ error.message)
    | .ok (_, .ok settings) =>
        if situation.host.logs settings.logLevel then
          runIn situation root settings invocation.command
        else stop situation (.log settings.logLevel)

/-- The panel that is shown if there are no arguments. -/
def banner : Item :=
  .panel (.text ("[bold cyan]LuaGuard v1.0.0[/bold cyan]\n" ++ rule 46))
    (some "[bold white]Lua Edit Gatekeeper[/bold white]")

/-- Runs the program. -/
def run (situation : Situation) (arguments : List String) : Outcome :=
  match arguments with
  | [] => showing situation (finish · (.exit .success)) [banner]
  | arguments =>
      match Invocation.ofArguments arguments with
      | .error code => finish situation (.exit code)
      | .ok invocation => runInvocation situation invocation

end EditGate.Command

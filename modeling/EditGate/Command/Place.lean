import EditGate.Command.Run

/-!
# Places of a run

The places on the disk that a run depends on. Nothing else has to be known of the disk to
run a command.
-/

namespace EditGate.Command

/-- The settings that a disk gives, or the defaults if it gives none. -/
def settingsOn (host : Host) (disk : Disk) (here : Path) (invocation : Invocation) : Settings :=
  match Settings.ofDisk host.document disk here (settingsRoute here invocation) with
  | .ok (_, .ok settings) => settings
  | _ => .standard

/-- The routes to a file of a workspace and to where it is first written. -/
def fileRoutes (root : Path) (name : String) : List Route :=
  let route := (Route.ofText name).under root
  [route, .ofPath ((route.resolve []).extendName Workspace.besideEnding)]

/-- The routes that a run follows. Where the history is stored depends on the settings, so
the disk has to hold these already. -/
def routes (host : Host) (disk : Disk) (here : Path) (invocation : Invocation) : List Route :=
  let root := rootOf here invocation
  let history := (Route.ofText (settingsOn host disk here invocation).historyFile).under root
  settingsRoute here invocation ::
    match invocation.command with
    | .check path _ _ _ => [.ofText path]
    | .edit request =>
        let source := match request.source with
          | .file name => [Route.ofText name]
          | _ => []
        history :: source ++ fileRoutes root request.file
    | .undo file _ _ => history :: fileRoutes root file
    | .history _ => [history]

/-- How far below the end of a route a command looks. -/
def reach : Command → Nat
  | .check _ _ _ _ => checkDepth + 1
  | _ => 0

/-- Whether a command reads standard input for the new text. -/
def readsInput : Command → Bool
  | .edit request =>
      match request.source with
      | .input => true
      | _ => false
  | _ => false

end EditGate.Command

import EditGate.Console
import EditGate.Diff.Unified
import EditGate.Report
import EditGate.Text.Rows

/-!
# Reports on the console

A verdict with its errors in their context, the warnings, a tally of the blocks, and the
repair if there is one; and the difference between two texts.
-/

namespace EditGate.Console

/-- How many rows are shown before and behind a finding. -/
def snippetContext : Nat := 3

/-- The number of rows of a text; the empty text has one. -/
def rowCount (text : List Char) : Nat :=
  max 1 (Text.rows text).length

/-- The rows around a line of a text that has `total` rows. -/
def snippet (text : List Char) (total line : Nat) : Content :=
  .snippet text (max 1 (line - snippetContext)) (min total (line + snippetContext)) line

/-- An error with its context in a text that has `total` rows. -/
def errorItems (text : List Char) (total : Nat) (snippets : Bool) (finding : Finding) :
    List Item :=
  let line := s!"[bold red]{finding.kind.name}[/bold red] {finding.notice.location}: " ++
    finding.message
  .text line :: if snippets then [.panel (snippet text total finding.position.line) none] else []

/-- A warning. -/
def warningItem (finding : Finding) : Item :=
  .text (s!"[yellow]⚠ {finding.kind.name}[/yellow] {finding.notice.location}: " ++ finding.message)

/-- The tally of the blocks. -/
def tally (blocks : Lua.BlockAnalysis) : Item :=
  .text (s!"[dim]Blocks: expected {blocks.expected} 'end', found {blocks.found}; " ++
    s!"unclosed {blocks.unclosed.length}, extra closers {blocks.extraLines.length}[/dim]")

/-- The verdict on a file. -/
def reportItems (report : Report) (name : String) (snippets : Bool) : List Item :=
  let verdict :=
    if report.valid then s!"[bold green]✅ {name}: structurally valid[/bold green]"
    else s!"[bold red]❌ {name}: {report.errors.length} error(s)[/bold red]"
  let offer := match report.fixed with
    | some _ =>
        [Item.text ("[bold cyan]🔧 Auto-fix available:[/bold cyan] appending " ++
          s!"{report.blocks.missing} 'end' makes the buffer valid (use --accept-fix).")]
    | none => []
  let total := rowCount report.candidate
  .text verdict :: report.errors.flatMap (errorItems report.candidate total snippets) ++
    report.warnings.map warningItem ++ tally report.blocks :: offer

/-- The difference that an edit makes to a file. -/
def differenceItem (before after : List Char) (name : String) : Item :=
  match Diff.unified s!"a/{name}" s!"b/{name}" (Text.rows before) (Text.rows after) with
  | [] => .text s!"[dim]ℹ No changes for {name}.[/dim]"
  | lines => .panel (.difference ("\n".intercalate lines)) (some s!"Proposed Edit: {name}")

end EditGate.Console

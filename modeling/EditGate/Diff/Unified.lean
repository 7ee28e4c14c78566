import EditGate.Diff.Script
import EditGate.Text.Lines

/-!
# Unified differences

A script shown as hunks: the changed parts with up to three kept lines around each,
and a header that says which lines a hunk covers in both sequences.
-/

namespace EditGate.Diff

/-- The number of kept lines shown around a change. -/
def contextLines : Nat := 3

/-- A stretch of a script, and the places where it starts in both sequences. -/
structure Hunk (α : Type) where
  oldStart : Nat
  newStart : Nat
  segments : List (Segment α)

namespace Hunk

variable {α : Type}

/-- The number of old lines that a hunk covers. -/
def oldSize (hunk : Hunk α) : Nat :=
  hunk.segments.foldr (fun segment total => segment.old.length + total) 0

/-- The number of new lines that a hunk covers. -/
def newSize (hunk : Hunk α) : Nat :=
  hunk.segments.foldr (fun segment total => segment.new.length + total) 0

/-- Puts a part at the end of a hunk. -/
def push (hunk : Hunk α) (segment : Segment α) : Hunk α :=
  { hunk with segments := hunk.segments ++ [segment] }

/-- Whether anything is changed in a hunk. -/
def hasChange (hunk : Hunk α) : Bool :=
  hunk.segments.any fun
    | .change _ _ => true
    | .keep _ => false

/-- Splits a script at long kept parts, of which only the ends are shown. `hunk` is the
hunk begun already. -/
def split (hunk : Hunk α) : List (Segment α) → List (Hunk α)
  | [] => [hunk]
  | .keep lines :: rest =>
      if 2 * contextLines < lines.length then
        let skipped := lines.length - contextLines
        hunk.push (.keep (lines.take contextLines)) ::
          split ⟨hunk.oldStart + hunk.oldSize + skipped, hunk.newStart + hunk.newSize + skipped,
            [.keep (lines.drop skipped)]⟩ rest
      else split (hunk.push (.keep lines)) rest
  | segment :: rest => split (hunk.push segment) rest

/-- Shortens a kept part at the end of a script to its first lines. -/
def trimEnd : List (Segment α) → List (Segment α)
  | [] => []
  | [.keep lines] => [.keep (lines.take contextLines)]
  | segment :: rest => segment :: trimEnd rest

/-- The hunks of a script. A kept part at the start is shortened to its last lines. -/
def ofScript (script : List (Segment α)) : List (Hunk α) :=
  let hunks := match script with
    | .keep lines :: rest =>
        let skipped := lines.length - contextLines
        split ⟨skipped, skipped, [.keep (lines.drop skipped)]⟩ (trimEnd rest)
    | script => split ⟨0, 0, []⟩ (trimEnd script)
  hunks.filter hasChange

/-- The lines that a stretch covers, counted from one. One line is named alone, and an
empty stretch by the line before it. -/
def range (start size : Nat) : String :=
  if size = 1 then toString (start + 1)
  else if size = 0 then toString start ++ ",0"
  else toString (start + 1) ++ "," ++ toString size

/-- The header of a hunk. -/
def header (hunk : Hunk α) : String :=
  "@@ -" ++ range hunk.oldStart hunk.oldSize ++ " +" ++ range hunk.newStart hunk.newSize ++ " @@"

private def marked (mark : Char) (lines : List Line) : List String :=
  lines.map fun line => String.ofList (mark :: line)

/-- The lines of a part: kept, removed and added ones. -/
def segmentLines : Segment Line → List String
  | .keep lines => marked ' ' lines
  | .change old new => marked '-' old ++ marked '+' new

/-- The lines of a hunk. -/
def lines (hunk : Hunk Line) : List String :=
  hunk.header :: hunk.segments.flatMap segmentLines

end Hunk

/-- The unified difference of two sequences of lines with names for both; empty if they
are equal. -/
def unified (oldName newName : String) (old new : List Line) : List String :=
  match Hunk.ofScript (script (commonLimit new.length) old new) with
  | [] => []
  | hunks => ("--- " ++ oldName) :: ("+++ " ++ newName) :: hunks.flatMap Hunk.lines

end EditGate.Diff

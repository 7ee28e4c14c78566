import EditGate.Lua.Balance
import EditGate.Lua.Block
import EditGate.Text.Blank

/-!
# Repair

The one repair that is tried: if `end` are missing and every bracket is balanced,
the missing ones are added at the end of the text, in place of blank lines there.
-/

namespace EditGate.Repair

open Lua

/-- Whether the repair is worth a try. -/
def applies (blocks : BlockAnalysis) (brackets : BracketAnalysis) : Bool :=
  decide (0 < blocks.missing) && brackets.findings.isEmpty

/-- The lines without the blank ones at the end. -/
def dropBlankEnd (lines : List Line) : List Line :=
  (lines.reverse.dropWhile fun line => line.all Text.isBlank).reverse

/-- Adds the missing `end`, each on a line of its own, with the line ending of the text. -/
def close (blocks : BlockAnalysis) (text : List Char) : List Char :=
  let buffer := Buffer.ofText text
  let ending := LineEnding.ofText text
  let lines := if ending = .returnLineFeed then buffer.lines.map Line.stripReturn else buffer.lines
  Buffer.toText ending
    ⟨dropBlankEnd lines ++ List.replicate blocks.missing.toNat "end".toList, buffer.ended⟩

end EditGate.Repair

import EditGate.Console
import EditGate.Text.Rows
import EditGate.Value.Json

/-!
# Plain drawing

The items of the console as text without colours, for a terminal of any kind. Markup is
left out, a panel is its title and what it holds, and a table has a bar between its cells.
-/

namespace EditGate.Console

/-- Whether a character can start a tag after its bracket. -/
def startsTag (char : Char) : Bool :=
  char.isLower || char == '#' || char == '/' || char == '@'

/-- What comes behind a tag whose opening bracket was just passed. -/
def behindTag? (chars : List Char) : Option (List Char) :=
  if chars.head?.any startsTag then
    match chars.dropWhile fun char => char != '[' && char != ']' with
    | ']' :: rest => some rest
    | _ => none
  else none

/-- Passing a tag leaves less to read. -/
theorem length_lt_of_behindTag? {chars rest : List Char} (found : behindTag? chars = some rest) :
    rest.length < chars.length := by
  unfold behindTag? at found
  split at found
  · split at found
    · next behind dropped =>
        have shorter := (List.dropWhile_sublist (l := chars)
          fun char => char != '[' && char != ']').length_le
        rw [dropped, List.length_cons] at shorter
        cases found
        omega
    · simp at found
  · simp at found

/-- A text without its tags. -/
def withoutTags (chars : List Char) : List Char :=
  match chars with
  | [] => []
  | char :: rest =>
      if char = '[' then
        match _found : behindTag? rest with
        | some behind => withoutTags behind
        | none => char :: withoutTags rest
      else char :: withoutTags rest
termination_by chars.length
decreasing_by
  · have := length_lt_of_behindTag? _found
    simp only [List.length_cons]
    omega
  · simp
  · simp

/-- A text with markup, drawn plainly. -/
def plainText (text : String) : String :=
  String.ofList (withoutTags text.toList)

/-- A row of a text with its number; the highlighted one is marked. -/
def plainRow (highlighted number : Nat) (row : List Char) : String :=
  (if number = highlighted then "> " else "  ") ++ s!"{number} " ++ String.ofList row

/-- What a panel holds, line by line. -/
def Content.plain : Content → List String
  | .text shown => [plainText shown]
  | .snippet shown first last highlighted =>
      (((Text.rows shown).zipIdx 1).drop (first - 1) |>.take (last + 1 - first)).map fun
        | (row, number) => plainRow highlighted number row
  | .difference shown => [shown]

/-- A row of a table. -/
def plainCells (cells : List String) : String :=
  " | ".intercalate (cells.map plainText)

/-- An item, line by line. -/
def Item.plain : Item → List String
  | .text shown => [plainText shown]
  | .panel content title => (title.map plainText).toList ++ content.plain
  | .table title columns rows => plainText title :: plainCells columns :: rows.map plainCells
  | .json value => [value.toIndentedJson]
  | .prompt shown => [plainText shown]

end EditGate.Console

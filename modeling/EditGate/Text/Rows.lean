/-!
# Display rows

A viewer breaks a text into rows at more places than line feeds: at carriage
returns, form feeds and the separators of Unicode too. A carriage return and a
line feed together are one break.
-/

namespace EditGate.Text

/-- The characters at which a viewer starts a new row. -/
def isRowBreak (char : Char) : Bool :=
  let code := char.toNat
  (0xa ≤ code && code ≤ 0xd) || (0x1c ≤ code && code ≤ 0x1e) ||
    code == 0x85 || code == 0x2028 || code == 0x2029

/-- The rows of a text. A break at the very end starts no further row. -/
def rows : List Char → List (List Char)
  | [] => []
  | '\r' :: '\n' :: rest => [] :: rows rest
  | char :: rest =>
      if isRowBreak char then [] :: rows rest
      else match rows rest with
        | [] => [[char]]
        | row :: others => (char :: row) :: others

end EditGate.Text

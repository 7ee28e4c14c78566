/-!
# Ranges of code points

Character classes beyond ASCII are tables of closed ranges in increasing order.
-/

namespace EditGate.Text

/-- Closed ranges of code points, in increasing order. -/
abbrev Ranges := List (Nat × Nat)

/-- Whether some range holds the code point. The order of the ranges ends the search early. -/
def Ranges.covers (code : Nat) : Ranges → Bool
  | [] => false
  | (first, last) :: rest =>
      if code < first then false else code ≤ last || Ranges.covers code rest

end EditGate.Text

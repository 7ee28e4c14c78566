/-!
# White space

The white space of Unicode together with the four information separators of
ASCII. Trimming removes it from the ends of a text.
-/

namespace EditGate.Text

/-- White space: tabs, breaks, separators and spaces of every width. The zero
width space and the byte order mark do not count. -/
def isBlank (char : Char) : Bool :=
  let code := char.toNat
  (0x9 ≤ code && code ≤ 0xd) || (0x1c ≤ code && code ≤ 0x20) ||
    code == 0x85 || code == 0xa0 || code == 0x1680 ||
    (0x2000 ≤ code && code ≤ 0x200a) || code == 0x2028 || code == 0x2029 ||
    code == 0x202f || code == 0x205f || code == 0x3000

/-- The text without white space in front. -/
def trimStart (chars : List Char) : List Char :=
  chars.dropWhile isBlank

/-- The text without white space behind. -/
def trimEnd (chars : List Char) : List Char :=
  (chars.reverse.dropWhile isBlank).reverse

/-- The text without white space at either end. -/
def trim (chars : List Char) : List Char :=
  trimEnd (trimStart chars)

end EditGate.Text

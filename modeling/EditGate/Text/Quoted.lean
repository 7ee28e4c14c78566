import EditGate.Text.Printable

/-!
# Quoted literals

A text as a literal on one line: in single quotes, or in double quotes if it
holds a single quote and no double one. Backslashes and the quote in use are
escaped, and so is every character that cannot be shown as it is. Octets are quoted
in the same way.
-/

namespace EditGate.Text

/-- A number in base sixteen, padded with zeros to a width. -/
def hex (width value : Nat) : List Char :=
  let digits := Nat.toDigits 16 value
  List.replicate (width - digits.length) '0' ++ digits

/-- One character inside a literal. -/
def quoteChar (quote char : Char) : List Char :=
  if char = quote ∨ char = '\\' then ['\\', char]
  else if char = '\n' then ['\\', 'n']
  else if char = '\r' then ['\\', 'r']
  else if char = '\t' then ['\\', 't']
  else if isPrintable char then [char]
  else
    let code := char.toNat
    if code < 0x100 then '\\' :: 'x' :: hex 2 code
    else if code < 0x10000 then '\\' :: 'u' :: hex 4 code
    else '\\' :: 'U' :: hex 8 code

/-- The quote for a text: a single one unless only the double one is free. -/
def quoteFor (chars : List Char) : Char :=
  if chars.contains '\'' && !chars.contains '"' then '"' else '\''

/-- A text as a quoted literal. -/
def quoted (text : String) : String :=
  let chars := text.toList
  let quote := quoteFor chars
  String.ofList (quote :: chars.flatMap (quoteChar quote) ++ [quote])

/-- Octets as a quoted literal. Only those of printable ASCII characters are shown as such. -/
def quotedOctets (octets : List UInt8) : String :=
  let chars := octets.map fun octet => Char.ofNat octet.toNat
  let quote := quoteFor chars
  String.ofList ('b' :: quote :: chars.flatMap (fun char =>
    if char.toNat < 0x7f then quoteChar quote char else '\\' :: 'x' :: hex 2 char.toNat) ++ [quote])

end EditGate.Text

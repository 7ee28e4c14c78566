/-!
# Block keywords and brackets

The tokens whose balance is checked. A block opens with one of six keywords and
closes with `end` or `until`; a bracket belongs to one of three families.
-/

namespace EditGate.Lua

/-- The kinds of blocks, by the keyword that opens them. -/
inductive BlockKind where
  | functionBody
  | conditional
  | forLoop
  | whileLoop
  | doBlock
  | repeatLoop
deriving DecidableEq, Repr

namespace BlockKind

/-- The keyword that opens a block. -/
def keyword : BlockKind → String
  | functionBody => "function"
  | conditional => "if"
  | forLoop => "for"
  | whileLoop => "while"
  | doBlock => "do"
  | repeatLoop => "repeat"

/-- The keyword that is missing if a block stays open. -/
def closer : BlockKind → String
  | repeatLoop => "until"
  | _ => "end"

/-- Loops whose header runs up to a `do` of its own. -/
def hasHeader : BlockKind → Bool
  | forLoop | whileLoop => true
  | _ => false

end BlockKind

/-- The keywords that open and close blocks. -/
inductive Keyword where
  | opener (kind : BlockKind)
  | blockEnd
  | loopUntil
deriving DecidableEq, Repr

/-- The keyword that a word spells. -/
def Keyword.ofWord? (word : List Char) : Option Keyword :=
  if word = "function".toList then some (.opener .functionBody)
  else if word = "if".toList then some (.opener .conditional)
  else if word = "for".toList then some (.opener .forLoop)
  else if word = "while".toList then some (.opener .whileLoop)
  else if word = "do".toList then some (.opener .doBlock)
  else if word = "repeat".toList then some (.opener .repeatLoop)
  else if word = "end".toList then some .blockEnd
  else if word = "until".toList then some .loopUntil
  else none

/-- The families of brackets. -/
inductive Family where
  | round
  | square
  | curly
deriving DecidableEq, Repr

/-- The opening bracket of a family. -/
def Family.opening : Family → Char
  | round => '('
  | square => '['
  | curly => '\x7b'

/-- The closing bracket of a family. -/
def Family.closing : Family → Char
  | round => ')'
  | square => ']'
  | curly => '\x7d'

/-- A bracket character. -/
inductive Bracket where
  | opening (family : Family)
  | closing (family : Family)
deriving DecidableEq, Repr

/-- The bracket that a character is. -/
def Bracket.ofChar? (char : Char) : Option Bracket :=
  if char = '(' then some (.opening .round)
  else if char = '[' then some (.opening .square)
  else if char = '\x7b' then some (.opening .curly)
  else if char = ')' then some (.closing .round)
  else if char = ']' then some (.closing .square)
  else if char = '\x7d' then some (.closing .curly)
  else none

end EditGate.Lua

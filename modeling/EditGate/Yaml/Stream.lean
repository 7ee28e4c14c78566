import EditGate.Assoc
import EditGate.Yaml.Token

/-!
# The tokens of a YAML text

Tokens are found one after the other, and only as far as they are asked for. A token may
turn out to start a key when a colon is met further on its line. Until that is settled, the
tokens behind it are found but held back; then the start of the key, and perhaps that of a
mapping, is put in front of it.

How far the tokens were found matters for one rule: in a flow mapping, a colon right before
a word belongs to the word if the last token held back is the colon of a key.
-/

namespace EditGate.Yaml

/-- A token that may start a key. -/
structure Candidate where
  /-- The number of the token. -/
  token : Nat
  /-- Whether it has to be a key, since it stands where the keys of a block mapping do. -/
  required : Bool
  index : Nat
  line : Nat
  column : Nat

/-- How far a text was read. -/
structure Stream where
  cursor : Cursor
  /-- Tokens that were found and not taken. -/
  queue : List Token := []
  /-- How many tokens were taken. -/
  taken : Nat := 0
  /-- Whether the end of the text was found. -/
  finished : Bool := false
  /-- The flow collections around the cursor, innermost first; mappings are marked true. -/
  flow : List Bool := []
  /-- The column of the block collection around the cursor, if there is one. -/
  indent : Option Nat := none
  /-- The columns of the block collections around that one. -/
  outer : List (Option Nat) := []
  /-- Whether a key may start here. -/
  keyAllowed : Bool := true
  /-- What may start a key, by the number of flow collections around it. -/
  candidates : Assoc Nat Candidate := []
  /-- The version of the rules that the document asks for. -/
  version : Option (Nat × Nat) := none

namespace Stream

/-- The start of a text. -/
def ofChars (chars : List Char) : Stream :=
  { cursor := .ofChars chars }

/-- Whether the older rules hold. -/
def older (stream : Stream) : Bool :=
  stream.version == some (1, 1)

/-- Whether rules hold that are newer than those. -/
def newer (stream : Stream) : Bool :=
  stream.version.all fun (major, minor) => 1 < major || (major == 1 && 1 < minor)

/-- Whether the cursor is in a flow collection. -/
def inFlow (stream : Stream) : Bool :=
  !stream.flow.isEmpty

/-- Adds a token behind the others. -/
def add (stream : Stream) (token : Token) : Stream :=
  { stream with queue := stream.queue ++ [token] }

/-- Puts a token in front of one that was found before. -/
def insert (stream : Stream) (number : Nat) (token : Token) : Stream :=
  let place := number - stream.taken
  { stream with queue := stream.queue.take place ++ token :: stream.queue.drop place }

/-- Adds a token of one or more characters. -/
def addMark (stream : Stream) (token : Token) (width : Nat) : Stream :=
  { stream.add token with cursor := stream.cursor.advanceBy width }

/-! ### Keys -/

/-- Forgets a candidate, which must not be required. -/
def dropCandidate (stream : Stream) (level : Nat) : Except Fault Stream :=
  match Assoc.find? level stream.candidates with
  | none => .ok stream
  | some candidate =>
      if candidate.required then .error .malformed
      else .ok { stream with candidates := Assoc.erase level stream.candidates }

/-- Forgets the candidate of the innermost flow collection. -/
def dropInner (stream : Stream) : Except Fault Stream :=
  stream.dropCandidate stream.flow.length

/-- Whether a candidate can no longer be a key: that has to end on its line and within 1024
characters. -/
def isStale (stream : Stream) (candidate : Candidate) : Bool :=
  candidate.line != stream.cursor.line || 1024 < stream.cursor.index - candidate.index

/-- Forgets the candidates that can no longer be keys. -/
def dropStale (stream : Stream) : Except Fault Stream :=
  (stream.candidates.filter fun (_, candidate) => stream.isStale candidate).foldlM
    (fun stream (level, _) => stream.dropCandidate level) stream

/-- Notes that the next token may start a key, if one is allowed here. -/
def noteCandidate (stream : Stream) : Except Fault Stream :=
  if stream.keyAllowed then do
    let stream ← stream.dropInner
    let candidate : Candidate :=
      { token := stream.taken + stream.queue.length
        required := !stream.inFlow && stream.indent == some stream.cursor.column
        index := stream.cursor.index
        line := stream.cursor.line
        column := stream.cursor.column }
    .ok { stream with candidates := Assoc.put stream.flow.length candidate stream.candidates }
  else .ok stream

/-! ### Indentation -/

/-- Whether a column is further in than the block collection around the cursor. -/
def isDeeper (stream : Stream) (column : Nat) : Bool :=
  stream.indent.all (· < column)

/-- Enters a block collection at a column. -/
def enter (stream : Stream) (column : Nat) : Stream :=
  { stream with indent := some column, outer := stream.indent :: stream.outer }

/-- Ends the block collections that are further in than a column, or all if none is given. -/
def unwindFrom (column : Option Nat) : (outer : List (Option Nat)) → Stream → Stream
  | [], stream => stream
  | around :: rest, stream =>
      let ends := match stream.indent, column with
        | none, _ => false
        | some _, none => true
        | some indent, some column => column < indent
      if ends then
        unwindFrom column rest { stream.add .blockEnd with indent := around, outer := rest }
      else stream

/-- Ends the block collections that are further in than a column, unless a flow collection
is open. -/
def unwind (stream : Stream) (column : Option Nat) : Stream :=
  if stream.inFlow then stream else unwindFrom column stream.outer stream

/-! ### Finding tokens -/

/-- The place of the next token, and whether a line ended on the way. Tabs are skipped only
in flow collections. -/
def skipGap (flow : Bool) : (fuel : Nat) → Cursor → Cursor × Bool
  | 0, cursor => (cursor, false)
  | fuel + 1, cursor =>
      let cursor := cursor.skipWhile fun char => char == ' ' || (flow && char == '\t')
      let cursor := if cursor.peek = some '#' then cursor.skipWhile (!isBreak ·) else cursor
      match cursor.lineBreak? with
      | none => (cursor, false)
      | some (_, after) => ((skipGap flow fuel after).1, true)

/-- Moves to the next token. A new line in a block collection may start with a key. -/
def skip (stream : Stream) : Stream :=
  let cursor := stream.cursor
  let start := if cursor.index = 0 ∧ cursor.peek = some '\ufeff' then cursor.advance else cursor
  let (place, brokeLine) := skipGap stream.inFlow (start.left + 1) start
  { stream with
    cursor := place
    keyAllowed := stream.keyAllowed || (brokeLine && !stream.inFlow) }

/-- The end of the text. -/
def findEnd (stream : Stream) : Except Fault Stream := do
  let stream ← (stream.unwind none).dropInner
  .ok { stream.add .textEnd with finished := true, keyAllowed := false, candidates := [] }

/-- A directive. -/
def findDirective (stream : Stream) : Except Fault Stream := do
  let stream ← (stream.unwind none).dropInner
  let (found, after) ← directive stream.newer stream.cursor
  let version := match found with
    | .version major minor => some (major, minor)
    | _ => stream.version
  .ok { stream.add (.directive found) with
    cursor := after, keyAllowed := false, version := version }

/-- A mark between documents. -/
def findDocumentMark (stream : Stream) (token : Token) : Except Fault Stream := do
  let stream ← (stream.unwind none).dropInner
  .ok { stream.addMark token 3 with keyAllowed := false }

/-- The start of a flow collection, which may be a key. -/
def findFlowStart (stream : Stream) (token : Token) (mapping : Bool) : Except Fault Stream := do
  let stream ← stream.noteCandidate
  .ok { stream.addMark token 1 with flow := mapping :: stream.flow, keyAllowed := true }

/-- The end of a flow collection. -/
def findFlowEnd (stream : Stream) (token : Token) : Except Fault Stream := do
  let stream ← stream.dropInner
  .ok { stream.addMark token 1 with flow := stream.flow.tail, keyAllowed := false }

/-- A comma in a flow collection. -/
def findFlowItem (stream : Stream) : Except Fault Stream := do
  let stream ← stream.dropInner
  .ok { stream.addMark .flowItem 1 with keyAllowed := true }

/-- Enters a block collection at the cursor if that is further in. -/
def enterHere (stream : Stream) (start : Token) : Stream :=
  if stream.isDeeper stream.cursor.column then
    (stream.enter stream.cursor.column).add start
  else stream

/-- The hyphen of an item. -/
def findBlockItem (stream : Stream) : Except Fault Stream := do
  if !stream.inFlow && !stream.keyAllowed then .error .malformed
  else
    let stream := if stream.inFlow then stream else stream.enterHere .blockListStart
    let stream ← stream.dropInner
    .ok { stream.addMark .blockItem 1 with keyAllowed := true }

/-- The question mark of a key. -/
def findKey (stream : Stream) : Except Fault Stream := do
  if !stream.inFlow && !stream.keyAllowed then .error .malformed
  else
    let stream := if stream.inFlow then stream else stream.enterHere .blockMappingStart
    let stream ← stream.dropInner
    .ok { stream.addMark .key 1 with keyAllowed := !stream.inFlow }

/-- The colon of a value. If there is a candidate, that is the key. -/
def findValue (stream : Stream) : Except Fault Stream := do
  let level := stream.flow.length
  match Assoc.find? level stream.candidates with
  | some candidate =>
      let stream := { stream with candidates := Assoc.erase level stream.candidates }
      let stream := stream.insert candidate.token .key
      let stream :=
        if !stream.inFlow && stream.isDeeper candidate.column then
          (stream.enter candidate.column).insert candidate.token .blockMappingStart
        else stream
      .ok { stream.addMark .value 1 with keyAllowed := false }
  | none =>
      if !stream.inFlow && !stream.keyAllowed then .error .malformed
      else
        let stream := if stream.inFlow then stream else stream.enterHere .blockMappingStart
        .ok { stream.addMark .value 1 with keyAllowed := !stream.inFlow }

/-- An anchor or an alias. -/
def findAnchor (stream : Stream) (token : String → Token) : Except Fault Stream := do
  let stream ← stream.noteCandidate
  let (name, after) ← anchorName stream.cursor.advance
  .ok { stream.add (token name) with cursor := after, keyAllowed := false }

/-- A tag. -/
def findTag (stream : Stream) : Except Fault Stream := do
  let stream ← stream.noteCandidate
  let (token, after) ← tag stream.newer stream.cursor
  .ok { stream.add token with cursor := after, keyAllowed := false }

/-- The column at which the inner of the block collection around the cursor may start. -/
def innerColumn (stream : Stream) : Nat :=
  (stream.indent.map (· + 1)).getD 0

/-- A block scalar. -/
def findBlock (stream : Stream) (folded : Bool) : Except Fault Stream := do
  let stream ← stream.dropInner
  let (text, after) ← block folded stream.innerColumn stream.cursor
  .ok { stream.add (.scalar (String.ofList text) false) with cursor := after, keyAllowed := true }

/-- A quoted scalar. -/
def findQuoted (stream : Stream) (quote : Char) : Except Fault Stream := do
  let stream ← stream.noteCandidate
  let (text, after) ← quoted quote stream.cursor
  .ok { stream.add (.scalar (String.ofList text) false) with cursor := after, keyAllowed := false }

/-- A plain scalar. If its line ended behind it, a key may follow. -/
def findPlain (stream : Stream) : Except Fault Stream := do
  let stream ← stream.noteCandidate
  let (text, gap) := plain stream.inFlow stream.older stream.innerColumn stream.cursor
  .ok { stream.add (.scalar (String.ofList text) true) with
    cursor := gap.after, keyAllowed := gap.brokeLine }

/-- Whether a colon in front is that of a value. -/
def atValue (stream : Stream) : Bool :=
  let ended := endsWord (stream.cursor.peekAt 1)
  match stream.flow with
  | [] => ended
  | mapping :: _ =>
      stream.older || ended || (mapping && stream.queue.getLast? != some .value)

/-- Whether a plain scalar starts with the character in front. -/
def atPlain (stream : Stream) (char : Char) : Bool :=
  let next := stream.cursor.peekAt 1
  if char = '-' then !endsWord next
  else if char = ':' then
    if stream.inFlow then !stream.older && !next.any isBlank else !endsWord next
  else if char = '?' then !stream.inFlow && !endsWord next
  else !isBreak char && !isBlank char && !isFlowMark char &&
    !"#&*!|>'\"%@`".toList.contains char

/-- Finds at least one more token. -/
def find (stream : Stream) : Except Fault Stream := do
  let stream ← stream.skip.dropStale
  let stream := stream.unwind (some stream.cursor.column)
  let cursor := stream.cursor
  let atStart := cursor.column == 0
  match cursor.peek with
  | none => stream.findEnd
  | some char =>
      if char = '%' ∧ atStart then stream.findDirective
      else if atStart ∧ cursor.atDocumentMark '-' then stream.findDocumentMark .documentStart
      else if atStart ∧ cursor.atDocumentMark '.' then stream.findDocumentMark .documentEnd
      else if char = '[' then stream.findFlowStart .flowListStart false
      else if char = '\x7b' then stream.findFlowStart .flowMappingStart true
      else if char = ']' then stream.findFlowEnd .flowListEnd
      else if char = '\x7d' then stream.findFlowEnd .flowMappingEnd
      else if char = ',' then stream.findFlowItem
      else if char = '-' ∧ endsWord (cursor.peekAt 1) then stream.findBlockItem
      else if char = '?' ∧ (stream.inFlow || endsWord (cursor.peekAt 1)) then stream.findKey
      else if char = ':' ∧ stream.atValue then stream.findValue
      else if char = '*' then stream.findAnchor .alias
      else if char = '&' then stream.findAnchor .anchor
      else if char = '!' then stream.findTag
      else if char = '|' ∧ !stream.inFlow then stream.findBlock false
      else if char = '>' ∧ !stream.inFlow then stream.findBlock true
      else if char = '\'' ∨ char = '"' then stream.findQuoted char
      else if stream.atPlain char then stream.findPlain
      else .error .malformed

/-- Whether the next token may still turn out to start a key. -/
def mayStartKey (stream : Stream) : Bool :=
  stream.candidates.any fun (_, candidate) => candidate.token == stream.taken

/-- Finds tokens until the next one is settled. Each turn takes a character or ends the
text. -/
def settleFrom : (fuel : Nat) → Stream → Except Fault Stream
  | 0, stream => .ok stream
  | fuel + 1, stream => do
      if stream.finished then .ok stream
      else if stream.queue.isEmpty then settleFrom fuel (← stream.find)
      else
        let stream ← stream.dropStale
        if stream.mayStartKey then settleFrom fuel (← stream.find) else .ok stream

/-- Finds tokens until the next one is settled. -/
def settle (stream : Stream) : Except Fault Stream :=
  settleFrom (stream.cursor.left + 2) stream

/-- The next token, and the text read that far. Behind the end of the text it stays there. -/
def peek (stream : Stream) : Except Fault (Token × Stream) := do
  let stream ← stream.settle
  .ok (stream.queue.head?.getD .textEnd, stream)

/-- Takes the next token. -/
def drop (stream : Stream) : Except Fault Stream := do
  let stream ← stream.settle
  .ok { stream with queue := stream.queue.tail, taken := stream.taken + 1 }

end Stream

end EditGate.Yaml

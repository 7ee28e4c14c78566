import EditGate.Value.Reader
import EditGate.Yaml.Cursor

/-!
# Scalars in a YAML text

The text of plain, quoted and block scalars. A plain or quoted scalar may run over several
lines: blanks around a line break are dropped, a single break becomes a space, and of more
breaks in a row the first is dropped. A block scalar keeps its breaks, or folds those between
two lines that are not indented further.

Every loop takes a character at each turn, so the number of characters bounds it.
-/

namespace EditGate.Yaml

/-- A break together with the ones that follow it. A separator that is no plain line feed
stays. -/
def foldBreaks (first : Char) (others : List Char) : List Char :=
  if first ≠ '\n' then first :: others
  else if others.isEmpty then [' ']
  else others

/-! ### Plain scalars -/

/-- The part of a plain scalar up to a blank or a line break. A colon belongs to it unless a
word ends behind it; so does a question mark, but in a flow collection under the older rules. -/
def plainPart (flow older : Bool) : List Char → List Char
  | [] => []
  | char :: rest =>
      let stops :=
        if char = ':' then endsWord rest.head?
        else if char = '?' then flow && older
        else isBreak char || isBlank char || (flow && isFlowMark char)
      if stops then [] else char :: plainPart flow older rest

/-- What separates two parts of a plain scalar, or follows the last one. -/
structure Gap where
  /-- What it comes to; nothing if no further part can follow. -/
  text : List Char
  /-- Whether a line ended. -/
  brokeLine : Bool
  after : Cursor

/-- The line breaks that follow one, unless a mark between documents turns up. -/
def plainBreaks : (fuel : Nat) → Cursor → Option (List Char) × Cursor
  | 0, cursor => (some [], cursor)
  | fuel + 1, cursor =>
      let cursor := cursor.skipWhile (· == ' ')
      match cursor.lineBreak? with
      | none => (some [], cursor)
      | some (char, after) =>
          if after.atDocumentEdge then (none, after)
          else
            let (breaks, after) := plainBreaks fuel after
            (breaks.map (char :: ·), after)

/-- The gap behind a part of a plain scalar. Tabs do not belong to it. -/
def plainGap (cursor : Cursor) : Gap :=
  let (spaces, cursor) := cursor.takeWhile (· == ' ')
  match cursor.lineBreak? with
  | none => ⟨spaces, false, cursor⟩
  | some (char, after) =>
      if after.atDocumentEdge then ⟨[], true, after⟩
      else
        let (breaks, after) := plainBreaks after.left after
        ⟨(breaks.map (foldBreaks char)).getD [], true, after⟩

/-- A plain scalar from a given gap on: its text, and the gap behind it. A further part has
to stand at least `indent` columns in, except in a flow collection, and is no comment. -/
def plainFrom (flow older : Bool) (indent : Nat) : (fuel : Nat) → Gap → List Char × Gap
  | 0, gap => ([], gap)
  | fuel + 1, gap =>
      let part := if gap.after.peek = some '#' then [] else plainPart flow older gap.after.rest
      if part.isEmpty then ([], gap)
      else
        let next := plainGap (gap.after.advanceBy part.length)
        if next.text.isEmpty || next.after.peek == some '#' ||
            (!flow && decide (next.after.column < indent)) then
          (gap.text ++ part, next)
        else
          let (text, last) := plainFrom flow older indent fuel next
          (gap.text ++ part ++ text, last)

/-- A plain scalar in front: its text, and the gap behind it. -/
def plain (flow older : Bool) (indent : Nat) (cursor : Cursor) : List Char × Gap :=
  plainFrom flow older indent (cursor.left + 1) ⟨[], false, cursor⟩

/-! ### Quoted scalars -/

/-- The character that an escape of one letter stands for. -/
def escaped? : Char → Option Char
  | '0' => some '\x00'
  | 'a' => some '\x07'
  | 'b' => some '\x08'
  | 't' | '\t' => some '\t'
  | 'n' => some '\n'
  | 'v' => some '\x0b'
  | 'f' => some '\x0c'
  | 'r' => some '\r'
  | 'e' => some '\x1b'
  | ' ' => some ' '
  | '"' => some '"'
  | '/' => some '/'
  | '\\' => some '\\'
  | 'N' => some '\u0085'
  | '_' => some '\u00a0'
  | 'L' => some '\u2028'
  | 'P' => some '\u2029'
  | _ => none

/-- How many digits an escape by number has. -/
def escapeWidth? : Char → Option Nat
  | 'x' => some 2
  | 'u' => some 4
  | 'U' => some 8
  | _ => none

/-- The number that digits of base sixteen write. -/
def hexNumber? (digits : List Char) : Option Nat :=
  (digits.mapM Value.hexValue?).map (List.foldl (fun number digit => number * 16 + digit) 0)

/-- The number of an escape behind its backslash, and the place behind it. -/
def numbered? (cursor : Cursor) : Option (Nat × Cursor) := do
  let width ← cursor.peek.bind escapeWidth?
  let digits := cursor.advance.rest.take width
  let number ← hexNumber? digits
  if digits.length = width then some (number, cursor.advanceBy (width + 1)) else none

/-- The character with a given code, and the place behind it. A high surrogate takes the low
one that is written next; one that stands alone becomes the replacement character. -/
def numberedChar (code : Nat) (after : Cursor) : Except Fault (Char × Cursor) :=
  if 0x10ffff < code then .error .meaningless
  else if 0xd800 ≤ code ∧ code < 0xe000 then
    match after.peek, numbered? after.advance with
    | some '\\', some (low, behind) =>
        if code < 0xdc00 ∧ 0xdc00 ≤ low ∧ low < 0xe000 then
          .ok (Char.ofNat (0x10000 + (code - 0xd800) * 0x400 + (low - 0xdc00)), behind)
        else .ok ('\ufffd', after)
    | _, _ => .ok ('\ufffd', after)
  else .ok (Char.ofNat code, after)

/-- The line breaks that follow one in a quoted scalar. No mark between documents may stand
at the start of a line. -/
def quotedBreaks : (fuel : Nat) → Cursor → Except Fault (List Char × Cursor)
  | 0, cursor => .ok ([], cursor)
  | fuel + 1, cursor =>
      if cursor.atDocumentEdge then .error .malformed
      else
        let cursor := cursor.skipWhile isBlank
        match cursor.lineBreak? with
        | none => .ok ([], cursor)
        | some (char, after) => do
            let (breaks, after) ← quotedBreaks fuel after
            .ok (char :: breaks, after)

/-- What an escape means, from behind its backslash, and the place behind it. A line break
is dropped, but not those that follow it. -/
def escape (cursor : Cursor) : Except Fault (List Char × Cursor) :=
  match cursor.peek with
  | none => .error .malformed
  | some mark =>
      match escaped? mark, escapeWidth? mark with
      | some char, _ => .ok ([char], cursor.advance)
      | none, some _ =>
          match numbered? cursor with
          | none => .error .malformed
          | some (code, after) => (numberedChar code after).map fun (char, after) => ([char], after)
      | none, none =>
          match cursor.lineBreak? with
          | none => .error .malformed
          | some (_, after) => quotedBreaks (after.left + 1) after

/-- The part of a quoted scalar up to a blank, a line break or the closing quote. Two single
quotes stand for one. -/
def quotedPart (quote : Char) : (fuel : Nat) → Cursor → Except Fault (List Char × Cursor)
  | 0, cursor => .ok ([], cursor)
  | fuel + 1, cursor =>
      match cursor.rest with
      | [] => .ok ([], cursor)
      | char :: rest =>
          if isBlank char || isBreak char then .ok ([], cursor)
          else if char = quote then
            if quote = '\'' ∧ rest.head? = some '\'' then do
              let (text, after) ← quotedPart quote fuel (cursor.advanceBy 2)
              .ok (quote :: text, after)
            else .ok ([], cursor)
          else if char = '\\' ∧ quote = '"' then do
            let (meaning, after) ← escape cursor.advance
            let (text, after) ← quotedPart quote fuel after
            .ok (meaning ++ text, after)
          else do
            let (text, after) ← quotedPart quote fuel cursor.advance
            .ok (char :: text, after)

/-- The blanks and line breaks behind a part of a quoted scalar. -/
def quotedGap (cursor : Cursor) : Except Fault (List Char × Cursor) :=
  let (blanks, cursor) := cursor.takeWhile isBlank
  match cursor.peek, cursor.lineBreak? with
  | none, _ => .error .malformed
  | some _, none => .ok (blanks, cursor)
  | some _, some (char, after) => do
      let (breaks, after) ← quotedBreaks (after.left + 1) after
      .ok (foldBreaks char breaks, after)

/-- A quoted scalar from inside its quotes, and the place behind the closing one. -/
def quotedFrom (quote : Char) : (fuel : Nat) → Cursor → Except Fault (List Char × Cursor)
  | 0, _ => .error .malformed
  | fuel + 1, cursor => do
      let (part, cursor) ← quotedPart quote cursor.left cursor
      if cursor.peek = some quote then .ok (part, cursor.advance)
      else
        let (gap, cursor) ← quotedGap cursor
        let (text, after) ← quotedFrom quote fuel cursor
        .ok (part ++ gap ++ text, after)

/-- A quoted scalar with its opening quote in front, and the place behind it. -/
def quoted (quote : Char) (cursor : Cursor) : Except Fault (List Char × Cursor) :=
  quotedFrom quote (cursor.left + 1) cursor.advance

/-! ### Block scalars -/

/-- What becomes of the line breaks at the end of a block scalar. -/
inductive Chomping where
  /-- One is kept. -/
  | clip
  /-- None is kept. -/
  | strip
  /-- All are kept. -/
  | keep
deriving DecidableEq

/-- The sign for what becomes of the last breaks. -/
def chomping? : Option Char → Option Chomping
  | some '+' => some .keep
  | some '-' => some .strip
  | _ => none

/-- The digit for how far a block scalar is indented. -/
def indentation? (char : Option Char) : Option Nat :=
  (char.filter Char.isDigit).map fun digit => digit.toNat - '0'.toNat

/-- The first line of a block scalar behind its mark: the signs, and the place where the next
line starts. They come in either order, and only a comment may follow. -/
def blockHeader (cursor : Cursor) : Except Fault (Chomping × Option Nat × Cursor) := do
  let (chomping, indent, cursor) :=
    match chomping? cursor.peek, indentation? cursor.peek with
    | some chomping, _ =>
        match indentation? cursor.advance.peek with
        | some indent => (chomping, some indent, cursor.advanceBy 2)
        | none => (chomping, none, cursor.advance)
    | none, some indent =>
        match chomping? cursor.advance.peek with
        | some chomping => (chomping, some indent, cursor.advanceBy 2)
        | none => (.clip, some indent, cursor.advance)
    | none, none => (.clip, none, cursor)
  if indent = some 0 ∨ !endsField cursor.peek then .error .malformed
  else
    let cursor := cursor.skipWhile (· == ' ')
    let cursor :=
      if cursor.peek = some '#' then cursor.skipWhile (!isBreak ·) else cursor
    if endsLine cursor.peek then .ok (chomping, indent, cursor.nextLine) else .error .malformed

/-- The empty lines before a block scalar. -/
structure Lead where
  breaks : List Char := []
  /-- The column at which the first of them ends. -/
  first : Option Nat := none
  /-- The furthest column that spaces reach. -/
  reach : Nat := 0

/-- The empty lines before a block scalar, and the place behind them. -/
def blockLead : (fuel : Nat) → Lead → Cursor → Lead × Cursor
  | 0, lead, cursor => (lead, cursor)
  | fuel + 1, lead, cursor =>
      let cursor := cursor.skipWhile (· == ' ')
      let lead := { lead with reach := max lead.reach cursor.column }
      match cursor.lineBreak? with
      | none => (lead, cursor)
      | some (char, after) =>
          blockLead fuel { lead with
            breaks := lead.breaks ++ [char]
            first := some (lead.first.getD cursor.column) } after

/-- The empty lines in front of a line of a block scalar, and the place where its text
starts. -/
def blockBreaks (indent : Nat) : (fuel : Nat) → Cursor → List Char × Cursor
  | 0, cursor => ([], cursor)
  | fuel + 1, cursor =>
      let cursor := cursor.skipIndent indent
      match cursor.lineBreak? with
      | none => ([], cursor)
      | some (char, after) =>
          let (breaks, after) := blockBreaks indent fuel after
          (char :: breaks, after)

/-- The lines of a block scalar. -/
structure BlockLines where
  text : List Char
  /-- The break behind the last line. -/
  last : List Char
  /-- The breaks behind that one. -/
  trailing : List Char
  after : Cursor

/-- The lines of a block scalar that are `indent` columns in, where `breaks` precede the
first. At the outermost level a mark between documents ends them. -/
def blockLines (folded : Bool) (indent : Nat) (outermost : Bool) :
    (fuel : Nat) → (breaks : List Char) → Cursor → BlockLines
  | 0, breaks, cursor => ⟨[], [], breaks, cursor⟩
  | fuel + 1, breaks, cursor =>
      if cursor.column ≠ indent ∨ cursor.rest.isEmpty then ⟨[], [], breaks, cursor⟩
      else
        let (line, after) := cursor.takeWhile (!isBreak ·)
        let last := (after.lineBreak?.map fun found => [found.1]).getD []
        let (next, after) := blockBreaks indent (after.left + 1) after.nextLine
        if (outermost && after.column == 0 && after.atDocumentEdge) ||
            after.column != indent || after.rest.isEmpty then
          ⟨breaks ++ line, last, next, after⟩
        else
          let joined :=
            if folded && last == ['\n'] && !cursor.peek.any isBlank && !after.peek.any isBlank then
              if next.isEmpty then [' '] else []
            else last
          let more := blockLines folded indent outermost fuel next after
          { more with text := breaks ++ line ++ joined ++ more.text }

/-- A block scalar with its mark in front, below a collection at column `level - 1`, and the
place behind it. -/
def block (folded : Bool) (level : Nat) (cursor : Cursor) :
    Except Fault (List Char × Cursor) := do
  let (chomping, width, cursor) ← blockHeader cursor.advance
  let (breaks, indent, cursor) ← match width with
    | some width =>
        let indent := max level 1 + width - 1
        let (breaks, cursor) := blockBreaks indent (cursor.left + 1) cursor
        .ok (breaks, indent, cursor)
    | none =>
        let (lead, cursor) := blockLead (cursor.left + 1) {} cursor
        if lead.first.any fun first => 0 < first && first < lead.reach then .error .malformed
        else .ok (lead.breaks, max level lead.reach, cursor)
  let outermost := width.isNone && level == 0
  let lines := blockLines folded indent outermost (cursor.left + 1) breaks cursor
  let ending := match chomping with
    | .clip => lines.last
    | .strip => []
    | .keep => lines.last ++ lines.trailing
  .ok (lines.text ++ ending, lines.after)

end EditGate.Yaml

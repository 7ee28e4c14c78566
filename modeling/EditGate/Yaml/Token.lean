import EditGate.Text.Utf8
import EditGate.Yaml.Scalar

/-!
# Tokens of YAML

The parts that a YAML text is made of. Where a block collection starts and ends is a token
of its own, since indentation is settled before the parts are put together. So is the start
of a key, which is known only when its colon is met.
-/

namespace EditGate.Yaml

/-- What a directive in front of a document says. -/
inductive Directive where
  /-- The version of the rules. -/
  | version (major minor : Nat)
  /-- What the handle of a tag stands for. -/
  | handle (handle meaning : String)
  /-- Something that is not known and ignored. -/
  | reserved
deriving DecidableEq, Repr

/-- A part of a YAML text. -/
inductive Token where
  | directive (directive : Directive)
  | documentStart
  | documentEnd
  | textEnd
  | blockListStart
  | blockMappingStart
  | blockEnd
  | flowListStart
  | flowListEnd
  | flowMappingStart
  | flowMappingEnd
  | blockItem
  | flowItem
  | key
  | value
  | alias (name : String)
  | anchor (name : String)
  | tag (handle : Option String) (suffix : String)
  | scalar (text : String) (plain : Bool)
deriving DecidableEq, Repr

/-- Characters that the name of an anchor may hold. -/
def isAnchorChar (char : Char) : Bool :=
  let code := char.toNat
  !isFlowMark char && char != '\ufeff' &&
    ((0x21 ≤ code && code ≤ 0x7e) || (0xa0 ≤ code && code != 0xfffe && code != 0xffff))

/-- The name of an anchor or an alias behind its mark, and the place behind it. -/
def anchorName (cursor : Cursor) : Except Fault (String × Cursor) :=
  let (name, after) := cursor.takeWhile isAnchorChar
  if name.isEmpty ∨ !after.peek.all (fun char => isBreak char || isBlank char || isFlowMark char)
  then .error .malformed
  else .ok (String.ofList name, after)

/-- Letters, digits, hyphens and underscores. -/
def isWordChar (char : Char) : Bool :=
  char.isAlphanum || char == '-' || char == '_'

/-- Characters that the name of a tag may hold, apart from escapes. The newer rules allow one
more. -/
def isTagChar (newer : Bool) (char : Char) : Bool :=
  char.isAlphanum || "-;/?:@&=+$,_.!~*'()[]".toList.contains char || (char == '#' && newer)

/-- Octets that are written as escapes in the name of a tag, and the place behind them. -/
def tagOctets : (fuel : Nat) → Cursor → Except Fault (List UInt8 × Cursor)
  | 0, cursor => .ok ([], cursor)
  | fuel + 1, cursor =>
      if cursor.peek = some '%' then
        match cursor.advance.rest.take 2, hexNumber? (cursor.advance.rest.take 2) with
        | [_, _], some octet => do
            let (octets, after) ← tagOctets fuel (cursor.advanceBy 3)
            .ok (octet.toUInt8 :: octets, after)
        | _, _ => .error .malformed
      else .ok ([], cursor)

/-- The name of a tag, and the place behind it. Escapes stay as they are, but have to make
sense. -/
def tagNameFrom (newer : Bool) : (fuel : Nat) → Cursor → Except Fault (List Char × Cursor)
  | 0, cursor => .ok ([], cursor)
  | fuel + 1, cursor =>
      match cursor.peek with
      | some '%' => do
          let (octets, after) ← tagOctets cursor.left cursor
          match Utf8.decode octets with
          | .error _ => .error .malformed
          | .ok _ =>
              let (name, last) ← tagNameFrom newer fuel after
              .ok (cursor.rest.take (3 * octets.length) ++ name, last)
      | some char =>
          if isTagChar newer char then do
            let (name, after) ← tagNameFrom newer fuel cursor.advance
            .ok (char :: name, after)
          else .ok ([], cursor)
      | none => .ok ([], cursor)

/-- The name of a tag, which is not empty, and the place behind it. -/
def tagName (newer : Bool) (cursor : Cursor) : Except Fault (String × Cursor) := do
  let (name, after) ← tagNameFrom newer cursor.left cursor
  if name.isEmpty then .error .malformed else .ok (String.ofList name, after)

/-- The name of a tag with each escape replaced by the character of its number. -/
def unescaped : List Char → List Char
  | '%' :: first :: second :: rest =>
      Char.ofNat ((hexNumber? [first, second]).getD 0) :: unescaped rest
  | char :: rest => char :: unescaped rest
  | [] => []

/-- The handle of a tag, which is a word between exclamation marks, and the place behind
it. -/
def tagHandle (cursor : Cursor) : Except Fault (String × Cursor) :=
  if cursor.peek = some '!' then
    if cursor.peekAt 1 = some ' ' then .ok ("!", cursor.advance)
    else
      let (word, after) := cursor.advance.takeWhile isWordChar
      if after.peek = some '!' then .ok (String.ofList ('!' :: word ++ ['!']), after.advance)
      else .error .malformed
  else .error .malformed

/-- A tag with its mark in front, and the place behind it. A name in angle brackets stands
for itself, and so do one or two marks alone. -/
def tag (newer : Bool) (cursor : Cursor) : Except Fault (Token × Cursor) := do
  let (mark, last) :=
    if cursor.peekAt 1 = some '!' then ("!!", cursor.advance) else ("!", cursor)
  let (token, after) ←
    if last.peekAt 1 = some '<' then do
      let (name, after) ← tagName newer (last.advanceBy 2)
      if after.peek = some '>' then .ok (Token.tag none name, after.advance)
      else .error .malformed
    else if endsWord (last.peekAt 1) then .ok (Token.tag none mark, last.advance)
    else do
      let word := last.advance.rest.takeWhile fun char => !(isBreak char || char == ' ')
      let (handle, after) ←
        if word.contains '!' then tagHandle last else .ok (mark, last.advance)
      let (name, after) ← tagName newer after
      .ok (Token.tag (some handle) name, after)
  if endsField after.peek then .ok (token, after) else .error .malformed

/-- A number of a directive, and the place behind it. -/
def directiveNumber (cursor : Cursor) : Except Fault (Nat × Cursor) :=
  match cursor.takeWhile Char.isDigit with
  | ([], _) => .error .malformed
  | (digits, after) => .ok (Value.ofDigitChars digits, after)

/-- A directive with its mark in front, and the place where the next line starts. -/
def directive (newer : Bool) (cursor : Cursor) : Except Fault (Directive × Cursor) := do
  let (name, cursor) := cursor.advance.takeWhile fun char =>
    isWordChar char || char == ':' || char == '.'
  if name.isEmpty ∨ !endsField cursor.peek then .error .malformed
  else
    let start := cursor.skipWhile (· == ' ')
    let (found, after) ←
      if String.ofList name = "YAML" then do
        let (major, after) ← directiveNumber start
        if after.peek ≠ some '.' then .error .malformed
        else
          let (minor, after) ← directiveNumber after.advance
          if endsField after.peek then .ok (Directive.version major minor, after)
          else .error .malformed
      else if String.ofList name = "TAG" then do
        let (handle, after) ← tagHandle start
        if after.peek ≠ some ' ' then .error .malformed
        else
          let (meaning, after) ← tagName newer (after.skipWhile (· == ' '))
          if endsField after.peek then .ok (Directive.handle handle meaning, after)
          else .error .malformed
      else .ok (Directive.reserved, cursor.skipWhile (!isBreak ·))
    let after := after.skipWhile (· == ' ')
    let after := if after.peek = some '#' then after.skipWhile (!isBreak ·) else after
    if endsLine after.peek then .ok (found, after.nextLine) else .error .malformed

end EditGate.Yaml

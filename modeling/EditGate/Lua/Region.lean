import EditGate.Finding
import EditGate.Text.Lines

/-!
# Regions of a text

Every character of a line belongs to code, to a short string, to a long bracket
or to a line comment. A line is cut into pieces of one region each; only an open
long bracket is carried over to the next line.

A short string ends at the first quote like its own that has an even number of
backslashes right before it, or else at the end of its line. A long bracket of
level `n` opens with `[`, `n` equals signs and `[`, is a comment if `--` stands
right before it, and ends at the first `]`, `n` equals signs and `]` after it on
one line. Any other `--` starts a comment up to the end of the line.
-/

namespace EditGate.Lua

/-- What the characters of a piece are. -/
inductive Region where
  | code
  | shortString
  | longBracket (level : Nat) (isComment : Bool)
  | lineComment
deriving DecidableEq, Repr

/-- A run of characters of one region. -/
structure Piece where
  region : Region
  chars : List Char
deriving DecidableEq, Repr

/-- A long bracket that is still open, and where it opened. -/
structure OpenBracket where
  level : Nat
  isComment : Bool
  opened : Position
deriving DecidableEq, Repr

/-- A line cut into pieces. -/
structure LineScan where
  pieces : List Piece
  /-- The quote and the column of a short string that the end of the line cuts off. -/
  openString : Option (Char × Nat)
  /-- The long bracket that is open at the end of the line. -/
  carry : Option OpenBracket
deriving DecidableEq, Repr

namespace LineScan

/-- Puts a piece in front. -/
def prepend (piece : Piece) (scan : LineScan) : LineScan :=
  { scan with pieces := piece :: scan.pieces }

/-- Puts a character of code in front, into the first piece if that is code. -/
def prependCode (char : Char) (scan : LineScan) : LineScan :=
  match scan.pieces with
  | ⟨.code, chars⟩ :: rest => { scan with pieces := ⟨.code, char :: chars⟩ :: rest }
  | pieces => { scan with pieces := ⟨.code, [char]⟩ :: pieces }

end LineScan

/-- The level of the long bracket that opens in front. -/
def longLevel? : List Char → Option Nat
  | '[' :: rest =>
      match rest.dropWhile (· == '=') with
      | '[' :: _ => some (rest.takeWhile (· == '=')).length
      | _ => none
  | _ => none

/-- The characters that close a long bracket. -/
def longCloser (level : Nat) : List Char :=
  ']' :: (List.replicate level '=' ++ [']'])

/-- The characters up to and with the first occurrence of a pattern, and the rest. -/
def splitAfter? (pattern : List Char) : List Char → Option (List Char × List Char)
  | [] => if pattern.isEmpty then some ([], []) else none
  | char :: rest =>
      if pattern.isPrefixOf (char :: rest) then
        some (pattern, (char :: rest).drop pattern.length)
      else (splitAfter? pattern rest).map fun (taken, after) => (char :: taken, after)

/-- The rest after a pattern is no longer than what was searched. -/
theorem length_le_of_splitAfter? {pattern chars taken after : List Char}
    (found : splitAfter? pattern chars = some (taken, after)) : after.length ≤ chars.length := by
  induction chars generalizing taken with
  | nil =>
      simp only [splitAfter?] at found
      split at found <;> simp_all
  | cons char rest ih =>
      simp only [splitAfter?] at found
      split at found
      · simp only [Option.some.injEq, Prod.mk.injEq] at found
        rw [← found.2, List.length_drop]
        omega
      · cases hit : splitAfter? pattern rest with
        | none => simp [hit] at found
        | some pair =>
            obtain ⟨first, second⟩ := pair
            simp only [hit, Option.map_some, Option.some.injEq, Prod.mk.injEq] at found
            obtain ⟨-, rfl⟩ := found
            have := ih hit
            simp only [List.length_cons]
            omega

/-- The rest of a short string, with its closing quote, and what follows. `slashes` counts
the backslashes right before the characters at hand. -/
def closeString? (quote : Char) (slashes : Nat) : List Char → Option (List Char × List Char)
  | [] => none
  | char :: rest =>
      if char = quote ∧ slashes % 2 = 0 then some ([char], rest)
      else
        (closeString? quote (if char = '\\' then slashes + 1 else 0) rest).map
          fun (taken, after) => (char :: taken, after)

/-- The rest after a short string is shorter than what was searched. -/
theorem length_lt_of_closeString? {quote : Char} {slashes : Nat} {chars taken after : List Char}
    (found : closeString? quote slashes chars = some (taken, after)) :
    after.length < chars.length := by
  induction chars generalizing slashes taken with
  | nil => simp [closeString?] at found
  | cons char rest ih =>
      simp only [closeString?] at found
      split at found
      · simp only [Option.some.injEq, Prod.mk.injEq] at found
        simp [← found.2]
      · cases hit : closeString? quote (if char = '\\' then slashes + 1 else 0) rest with
        | none => simp [hit] at found
        | some pair =>
            obtain ⟨first, second⟩ := pair
            simp only [hit, Option.map_some, Option.some.injEq, Prod.mk.injEq] at found
            obtain ⟨-, rfl⟩ := found
            have := ih hit
            simp only [List.length_cons]
            omega

/-- What ends a stretch of code. -/
inductive Opening where
  | lineComment
  | long (level : Nat) (isComment : Bool)
  | shortString (quote : Char)
deriving DecidableEq, Repr

/-- The number of characters that open a long bracket. -/
def longWidth (level : Nat) (isComment : Bool) : Nat :=
  level + 2 + if isComment then 2 else 0

/-- What opens in front, if it is not code. -/
def opening? : List Char → Option Opening
  | '-' :: '-' :: rest =>
      match longLevel? rest with
      | some level => some (.long level true)
      | none => some .lineComment
  | '[' :: rest => (longLevel? ('[' :: rest)).map fun level => .long level false
  | char :: _ => if char = '"' ∨ char = '\'' then some (.shortString char) else none
  | [] => none

/-- Cuts the rest of a line that starts in code, at a column. -/
def scanCode (line column : Nat) (chars : List Char) : LineScan :=
  match chars with
  | [] => ⟨[], none, none⟩
  | char :: rest =>
      match opening? (char :: rest) with
      | none => (scanCode line (column + 1) rest).prependCode char
      | some .lineComment => ⟨[⟨.lineComment, char :: rest⟩], none, none⟩
      | some (.long level isComment) =>
          match _cut : splitAfter? (longCloser level)
              (rest.drop (longWidth level isComment - 1)) with
          | none =>
              ⟨[⟨.longBracket level isComment, char :: rest⟩], none,
                some ⟨level, isComment, ⟨line, column⟩⟩⟩
          | some (body, after) =>
              (scanCode line (column + longWidth level isComment + body.length) after).prepend
                ⟨.longBracket level isComment,
                  (char :: rest).take (longWidth level isComment) ++ body⟩
      | some (.shortString quote) =>
          match closed : closeString? quote 0 rest with
          | none => ⟨[⟨.shortString, char :: rest⟩], some (quote, column), none⟩
          | some (body, after) =>
              (scanCode line (column + 1 + body.length) after).prepend
                ⟨.shortString, char :: body⟩
termination_by chars.length
decreasing_by
  · simp
  · have shorter := length_le_of_splitAfter? _cut
    rw [List.length_drop] at shorter
    simp only [List.length_cons]
    omega
  · have := length_lt_of_closeString? closed
    simp only [List.length_cons]
    omega

/-- Cuts a line, inside the long bracket that is carried into it if there is one. -/
def scanLine (line : Nat) (carry : Option OpenBracket) (chars : Line) : LineScan :=
  match carry with
  | none => scanCode line 1 chars
  | some bracket =>
      let region := Region.longBracket bracket.level bracket.isComment
      match splitAfter? (longCloser bracket.level) chars with
      | none => ⟨if chars.isEmpty then [] else [⟨region, chars⟩], none, some bracket⟩
      | some (body, after) => (scanCode line (1 + body.length) after).prepend ⟨region, body⟩

/-- Cuts lines one after the other, counting from `line`. -/
def scanLines (line : Nat) (carry : Option OpenBracket) : List Line → List LineScan
  | [] => []
  | chars :: rest =>
      let scan := scanLine line carry chars
      scan :: scanLines (line + 1) scan.carry rest

/-- A text cut into lines and the lines into pieces. -/
structure Scan where
  lines : List Line
  scans : List LineScan

namespace Scan

/-- Cuts a text. -/
def ofText (text : List Char) : Scan :=
  let lines := Line.split text
  ⟨lines, scanLines 1 none lines⟩

/-- The long bracket that the end of the text leaves open. -/
def openBracket (scan : Scan) : Option OpenBracket :=
  scan.scans.getLast?.bind (·.carry)

end Scan

/-- A piece with its place. Columns are counted from zero, and `stop` is the first one after it. -/
structure Span where
  line : Nat
  start : Nat
  stop : Nat
  region : Region
deriving DecidableEq, Repr

/-- The pieces of a line with their places, from a column on. -/
def Span.ofPieces (line start : Nat) : List Piece → List Span
  | [] => []
  | piece :: rest =>
      ⟨line, start, start + piece.chars.length, piece.region⟩ ::
        ofPieces line (start + piece.chars.length) rest

/-- The pieces of lines with their places, counting from `line`. -/
def Span.ofScans (line : Nat) : List LineScan → List Span
  | [] => []
  | scan :: rest => ofPieces line 0 scan.pieces ++ ofScans (line + 1) rest

/-- A piece with all that is not code blotted out by spaces. -/
def Piece.mask (piece : Piece) : List Char :=
  match piece.region with
  | .code => piece.chars
  | _ => List.replicate piece.chars.length ' '

/-- A line with all that is not code blotted out by spaces, so that columns are kept. -/
def LineScan.code (scan : LineScan) : Line :=
  scan.pieces.flatMap Piece.mask

/-- The strings that are cut off by the ends of their lines, counting from `line`. -/
def openStrings (line : Nat) : List LineScan → List Finding
  | [] => []
  | scan :: rest =>
      (match scan.openString with
        | some (quote, column) => [{ cause := .openString quote, position := ⟨line, column⟩ }]
        | none => []) ++ openStrings (line + 1) rest

namespace Scan

/-- The pieces of the text with their places. -/
def spans (scan : Scan) : List Span :=
  Span.ofScans 1 scan.scans

/-- The lines with all that is not code blotted out. -/
def code (scan : Scan) : List Line :=
  scan.scans.map LineScan.code

/-- The strings and long brackets that are not closed. -/
def findings (scan : Scan) : List Finding :=
  openStrings 1 scan.scans ++
    match scan.openBracket with
    | some bracket =>
        [{ cause := .openLongBracket bracket.level bracket.isComment, position := bracket.opened }]
    | none => []

end Scan

end EditGate.Lua

import EditGate.Lua.Token
import EditGate.Value

/-!
# Findings

What an analysis reports: a cause at a position. The cause settles the kind, the
wording and the severity. Only a string left open at the end of its line can be
escalated from a warning to an error.

A notice is a finding flattened for display: kind, wording and places, which may be data of
any shape.
-/

namespace EditGate

/-- A place in a text. Lines and columns are counted from one. -/
structure Position where
  line : Nat
  column : Nat
deriving DecidableEq, Repr

/-- How much a finding weighs. Only errors keep a text from being accepted. -/
inductive Severity where
  | error
  | warning
deriving DecidableEq, Repr

/-- The name of a severity. -/
def Severity.name : Severity → String
  | error => "error"
  | warning => "warning"

/-- The kinds of findings. -/
inductive FindingKind where
  | unterminatedString
  | unterminatedLongBracket
  | unclosedBlock
  | extraCloser
  | mismatchedUntil
  | bracketMismatch
  | unclosedBracket
  | unexpectedCloser
  | deprecatedApi
  | implicitGlobal
  | namingConvention
deriving DecidableEq, Repr

namespace FindingKind

/-- Every kind of finding. -/
def all : List FindingKind :=
  [unterminatedString, unterminatedLongBracket, unclosedBlock, extraCloser, mismatchedUntil,
    bracketMismatch, unclosedBracket, unexpectedCloser, deprecatedApi, implicitGlobal,
    namingConvention]

/-- The name of a kind. -/
def name : FindingKind → String
  | unterminatedString => "UnterminatedString"
  | unterminatedLongBracket => "UnterminatedLongBracket"
  | unclosedBlock => "UnclosedBlock"
  | extraCloser => "ExtraCloser"
  | mismatchedUntil => "MismatchedUntil"
  | bracketMismatch => "BracketMismatch"
  | unclosedBracket => "UnclosedBracket"
  | unexpectedCloser => "UnexpectedCloser"
  | deprecatedApi => "DeprecatedApi"
  | implicitGlobal => "ImplicitGlobal"
  | namingConvention => "NamingConvention"

/-- The kind with a given name. -/
def ofName? (text : String) : Option FindingKind :=
  all.find? fun kind => kind.name == text

/-- The severity of a finding of this kind that is not escalated. -/
def severity : FindingKind → Severity
  | unterminatedString | deprecatedApi | implicitGlobal | namingConvention => .warning
  | _ => .error

end FindingKind

/-- Why something is reported. -/
inductive Cause where
  /-- A short string runs to the end of its line. -/
  | openString (quote : Char)
  /-- A long bracket runs to the end of the text. -/
  | openLongBracket (level : Nat) (isComment : Bool)
  /-- A block is never closed. -/
  | openBlock (kind : Lua.BlockKind)
  /-- An `end` finds no open block. -/
  | extraEnd
  /-- An `until` finds no `repeat` on top, but perhaps another block. -/
  | wrongUntil (innermost : Option (Lua.BlockKind × Nat))
  /-- A closing bracket meets the opening one of another family. -/
  | wrongBracket (closing : Lua.Family) (opening : Lua.Family) (openedAt : Position)
  /-- A bracket is never closed. -/
  | openBracket (opening : Lua.Family)
  /-- A closing bracket finds no open one. -/
  | extraBracket (closing : Lua.Family)
  /-- A function with a better replacement is called. -/
  | deprecatedCall (name replacement : String)
  /-- An assignment makes a name global. -/
  | globalAssignment (name : String)
  /-- A local name hides a standard one. -/
  | shadowedBuiltin (name : String)
deriving DecidableEq, Repr

namespace Cause

/-- The kind of finding that a cause makes. -/
def kind : Cause → FindingKind
  | openString _ => .unterminatedString
  | openLongBracket _ _ => .unterminatedLongBracket
  | openBlock _ => .unclosedBlock
  | extraEnd => .extraCloser
  | wrongUntil _ => .mismatchedUntil
  | wrongBracket _ _ _ => .bracketMismatch
  | openBracket _ => .unclosedBracket
  | extraBracket _ => .unexpectedCloser
  | deprecatedCall _ _ => .deprecatedApi
  | globalAssignment _ => .implicitGlobal
  | shadowedBuiltin _ => .namingConvention

/-- The other place that a cause points at. -/
def related : Cause → Option Position
  | wrongBracket _ _ openedAt => some openedAt
  | _ => none

private def inQuotes (char : Char) : String :=
  String.ofList ['\'', char, '\'']

/-- The wording of a cause found on a line. -/
def message (line : Nat) : Cause → String
  | openString quote =>
      "Unterminated string: missing closing " ++ quote.toString ++ " before end of line"
  | openLongBracket level isComment =>
      "Unterminated " ++ (if isComment then "long comment" else "long string") ++
        s!" (level {level}) opened here; expected ']" ++
        String.ofList (List.replicate level '=') ++ "]'"
  | openBlock kind =>
      s!"'{kind.keyword}' block opened on line {line} is never closed (missing '{kind.closer}')"
  | extraEnd => "'end' without a matching open block"
  | wrongUntil none => "'until' without a matching 'repeat'"
  | wrongUntil (some (kind, opened)) =>
      s!"'until' cannot close the '{kind.keyword}' block opened on line {opened}" ++
        "; it only closes 'repeat'"
  | wrongBracket closing opening openedAt =>
      inQuotes closing.closing ++ " does not close " ++ inQuotes opening.opening ++
        s!" opened on line {openedAt.line}, column {openedAt.column}; expected " ++
        inQuotes opening.closing
  | openBracket opening =>
      inQuotes opening.opening ++ " is never closed (expected " ++ inQuotes opening.closing ++ ")"
  | extraBracket closing =>
      "Unexpected " ++ inQuotes closing.closing ++ " with no open bracket"
  | deprecatedCall name replacement =>
      s!"{name}() is deprecated; use {replacement}()"
  | globalAssignment name =>
      s!"Assignment to undeclared '{name}' creates a global; declare it with 'local'"
  | shadowedBuiltin name =>
      s!"Local '{name}' shadows the standard global of the same name"

end Cause

/-- A cause at a position. -/
structure Finding where
  cause : Cause
  position : Position
  escalated : Bool := false
deriving DecidableEq, Repr

/-- A finding flattened for display. -/
structure Notice where
  kind : FindingKind
  message : Value
  line : Value
  column : Value := .null
  relatedLine : Value := .null
  relatedColumn : Value := .null
  escalated : Bool := false

namespace Notice

/-- The severity of the kind, unless the notice is escalated. -/
def severity (notice : Notice) : Severity :=
  if notice.escalated then .error else notice.kind.severity

/-- Whether a notice is an error. -/
def isError (notice : Notice) : Bool :=
  notice.severity = .error

/-- A notice as data. -/
def toValue (notice : Notice) : Value :=
  .object [("kind", .str notice.kind.name), ("severity", .str notice.severity.name),
    ("message", notice.message), ("line", notice.line), ("column", notice.column),
    ("related_line", notice.relatedLine), ("related_column", notice.relatedColumn)]

/-- Where a notice points. A column or a related line that counts as a no is left out, but
a related line always names its column. -/
def location (notice : Notice) : String :=
  let column :=
    if notice.column.isTruthy then ", col " ++ notice.column.display else ""
  let opened :=
    if notice.relatedLine.isTruthy then
      " (opened at line " ++ notice.relatedLine.display ++ ", col " ++
        notice.relatedColumn.display ++ ")"
    else ""
  "line " ++ notice.line.display ++ column ++ opened

/-- Why data make no notice. -/
inductive Error where
  /-- The kind is missing. -/
  | noKind
  /-- There is no such kind. -/
  | unknownKind
  /-- Another field that has to be there is missing, or there is one too many. -/
  | wrongFields

/-- The names of the fields of a notice, beside its kind. -/
def fieldNames : List String :=
  ["message", "line", "column", "related_line", "related_column", "escalated"]

/-- Reads a notice from the fields of an object. -/
def ofFields (fields : Assoc String Value) : Except Error Notice :=
  match Assoc.find? "kind" fields with
  | none => .error .noKind
  | some given =>
      match given.text?.bind FindingKind.ofName? with
      | none => .error .unknownKind
      | some kind =>
          let field (name : String) : Value := (Assoc.find? name fields).getD .null
          if fields.all fun (name, _) => name == "kind" || fieldNames.contains name then
            match Assoc.find? "message" fields, Assoc.find? "line" fields with
            | some message, some line =>
                .ok { kind := kind, message := message, line := line, column := field "column",
                      relatedLine := field "related_line",
                      relatedColumn := field "related_column",
                      escalated := (field "escalated").isTruthy }
            | _, _ => .error .wrongFields
          else .error .wrongFields

end Notice

namespace Finding

/-- The kind of a finding. -/
def kind (finding : Finding) : FindingKind :=
  finding.cause.kind

/-- The wording of a finding. -/
def message (finding : Finding) : String :=
  finding.cause.message finding.position.line

/-- The severity of the kind, unless the finding is escalated. -/
def severity (finding : Finding) : Severity :=
  if finding.escalated then .error else finding.kind.severity

/-- Whether a finding is an error. -/
def isError (finding : Finding) : Bool :=
  finding.severity = .error

/-- Findings are shown in the order of their lines and, on a line, of their columns. -/
def notAfter (first second : Finding) : Bool :=
  first.position.line < second.position.line ||
    (first.position.line == second.position.line &&
      first.position.column ≤ second.position.column)

/-- Puts findings in order. Findings at the same place keep theirs. -/
def sort (findings : List Finding) : List Finding :=
  findings.mergeSort notAfter

/-- A finding flattened for display. -/
def notice (finding : Finding) : Notice where
  kind := finding.kind
  message := .str finding.message
  line := .int finding.position.line
  column := .int finding.position.column
  relatedLine := (finding.cause.related.map fun place => Value.int place.line).getD .null
  relatedColumn := (finding.cause.related.map fun place => Value.int place.column).getD .null
  escalated := finding.escalated

/-- A finding as data. -/
def toValue (finding : Finding) : Value :=
  finding.notice.toValue

end Finding

end EditGate

import EditGate.Lua.Cursor
import EditGate.Text.Lines

/-!
# Declarations of a line

The names that a line of code declares, wherever on the line they stand: the names
of a `local`, the first part of a function's name, its parameters, and the
variables of a `for`. Scopes are not modelled.
-/

namespace EditGate.Lua

/-- The names of a `local` statement. With `local function` the names come after the
second keyword, unless no name follows it. -/
def localNames? (cursor : Cursor) : Option (List NameAt × Cursor) := do
  guard cursor.atWordStart
  let next ← (← cursor.chars? "local".toList).blanks?
  match ((next.chars? "function".toList).bind (·.blanks?)).bind (·.names?) with
  | some found => some found
  | none => next.names?

/-- The names of all `local` statements of a line. -/
def localNames (line : Line) : List NameAt :=
  (Cursor.start line).findAll localNames? |>.flatten

/-- Moves behind the names that continue another after a point or a colon. There are no more
of them than `bound` has characters. -/
def skipFields : (bound : List Char) → Cursor → Cursor
  | [], cursor => cursor
  | _ :: bound, cursor =>
      match ((cursor.char? '.').orElse fun _ => cursor.char? ':').bind (·.name?) with
      | some (_, next) => skipFields bound next
      | none => cursor

/-- The first part of a function's name, if it has one. -/
def functionName (cursor : Cursor) : Option NameAt × Cursor :=
  match cursor.name? with
  | some (name, next) => (some name, skipFields next.rest next)
  | none => (none, cursor)

/-- The names that a list of parameters declares: what stands before a type annotation,
without the three points of a variable number of them. -/
def parameterNames (parameters : List Char) : List (List Char) :=
  ((pieces ',' parameters).map fun parameter =>
      Text.trim ((pieces ':' parameter).headD [])).filter
    fun name => !name.isEmpty && name != "...".toList

/-- The names that a function declares: its own and those of its parameters. The list of
parameters has to end on the same line. -/
def functionNames? (cursor : Cursor) : Option (List (List Char) × Cursor) := do
  guard cursor.atWordStart
  let next ← cursor.chars? "function".toList
  let (name, next) := functionName next.skipBlanks
  let opened ← next.skipBlanks.char? '('
  let closed ← (opened.skipWhile (· != ')')).char? ')'
  some (name.toList.map (·.name) ++ parameterNames (opened.rest.takeWhile (· != ')')), closed)

/-- The variables of a `for` loop, up to the `=` or the `in` behind them. -/
def loopNames? (cursor : Cursor) : Option (List (List Char) × Cursor) := do
  guard cursor.atWordStart
  let next ← (← cursor.chars? "for".toList).blanks?
  let (names, next) ← next.names?
  let next := next.skipBlanks
  let last ← match next.char? '=' with
    | some last => some last
    | none => do
        guard next.atWordStart
        let last ← next.chars? "in".toList
        guard last.atWordEnd
        some last
  some (names.map (·.name), last)

/-- The names that a line declares. -/
def declaredNames (line : Line) : List (List Char) :=
  (localNames line).map (·.name) ++
    ((Cursor.start line).findAll functionNames?).flatten ++
    ((Cursor.start line).findAll loopNames?).flatten

/-- The name to which the statement at the start of a line assigns. -/
def assignedName? (line : Line) : Option NameAt := do
  let (name, next) ← (Cursor.start line).skipBlanks.name?
  let behind ← next.skipBlanks.char? '='
  guard (behind.rest.head? != some '=')
  some name

end EditGate.Lua

import EditGate.Finding
import EditGate.Lua.Declaration
import EditGate.Lua.Word
import EditGate.Settings
import EditGate.Value.Table

/-!
# Advice

Three rules look at lines of code and give warnings: calls of deprecated functions,
assignments that make a name global, and locals that hide a standard name. Advice
never makes a text invalid.
-/

namespace EditGate.Lint

open Lua

/-- What the rules go by. -/
structure Rules where
  /-- Deprecated functions and what to use in their place, longer names first. -/
  deprecated : List (String × String)
  /-- The standard names. -/
  builtins : List String

/-- Longer names come first, so that of two names that start alike the longer one is
found; names of the same length keep their order. -/
def longestFirst (entries : List (String × String)) : List (String × String) :=
  entries.mergeSort fun first second => second.1.length ≤ first.1.length

/-- The rules that settings call for. A function without a name cannot be looked for, nor can
a standard name that is itself a list or an object be looked up, so such settings make no
rules. -/
def Rules.ofSettings? (settings : Settings) : Option Rules := do
  let deprecated ← settings.deprecatedApis.mapM fun (name, replacement) =>
    name.text?.map (·, replacement.display)
  if settings.builtinNames.all Value.isKey then
    some {
      deprecated := longestFirst deprecated
      builtins := settings.builtinNames.filterMap Value.text? }
  else none

/-- Whether a call of a global function could start at a cursor. -/
def atCall (cursor : Cursor) : Bool :=
  cursor.atWordStart && !endsQualifier cursor.before

/-- Moves behind the name of a function and the bracket that opens its arguments. -/
def call? (name : String) (cursor : Cursor) : Option Cursor :=
  (cursor.chars? name.toList).bind fun next => next.skipBlanks.char? '('

/-- Whether the keyword `function` comes right before a cursor, so that what follows
defines a name and does not call it. -/
def definesName (cursor : Cursor) : Bool :=
  "function".toList.reverse.isPrefixOf (cursor.before.dropWhile Text.isBlank)

/-- A call of a deprecated function at a cursor. A definition is passed over. -/
def deprecatedCall? (deprecated : List (String × String)) (line : Nat) (cursor : Cursor) :
    Option (Option Finding × Cursor) :=
  if atCall cursor then
    deprecated.findSome? fun (name, replacement) =>
      (call? name cursor).map fun next =>
        (if definesName cursor then none
          else some {
            cause := .deprecatedCall name replacement
            position := ⟨line, cursor.column⟩ }, next)
  else none

/-- The calls of deprecated functions, counting lines from `line`. -/
def deprecatedCalls (rules : Rules) (line : Nat) : List Line → List Finding
  | [] => []
  | code :: rest =>
      ((Cursor.start code).findAll (deprecatedCall? rules.deprecated line)).filterMap id ++
        deprecatedCalls rules (line + 1) rest

/-- The words that no statement can assign to. -/
def reserved : List String :=
  ["and", "break", "do", "else", "elseif", "end", "false", "for", "function", "goto", "if", "in",
    "local", "nil", "not", "or", "repeat", "return", "then", "true", "until", "while"]

/-- The assignments that make a name global, counting lines from `line`. A name counts as
declared from the line of its declaration on, and from its first assignment on. -/
def globalAssignments (line : Nat) (declared : List (List Char)) : List Line → List Finding
  | [] => []
  | code :: rest =>
      let declared := declaredNames code ++ declared
      match assignedName? code with
      | none => globalAssignments (line + 1) declared rest
      | some found =>
          if declared.contains found.name || reserved.contains (String.ofList found.name) then
            globalAssignments (line + 1) declared rest
          else
            { cause := .globalAssignment (String.ofList found.name)
              position := ⟨line, found.column⟩ } ::
              globalAssignments (line + 1) (found.name :: declared) rest

/-- The locals that hide a standard name, counting lines from `line`. -/
def shadowedBuiltins (rules : Rules) (line : Nat) : List Line → List Finding
  | [] => []
  | code :: rest =>
      ((localNames code).filter fun found => rules.builtins.contains (String.ofList found.name)).map
        (fun found =>
          { cause := .shadowedBuiltin (String.ofList found.name)
            position := ⟨line, found.column⟩ }) ++
        shadowedBuiltins rules (line + 1) rest

/-- All advice on lines of code, in the order of its places. -/
def inspect (rules : Rules) (code : List Line) : List Finding :=
  Finding.sort
    (deprecatedCalls rules 1 code ++ globalAssignments 1 [] code ++ shadowedBuiltins rules 1 code)

end EditGate.Lint

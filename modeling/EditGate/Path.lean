import EditGate.Text.Lines

/-!
# Paths

A path is absolute and normal: a list of components, none of which stands for another
place. A route is a path as it is written, from the top or from some directory, and may
climb with `..`. Exactly two slashes in front are shown as they were written.
-/

namespace EditGate

/-- An absolute path: the components from the top down. -/
abbrev Path := List String

namespace Path

/-- A path as text. -/
def text (path : Path) : String :=
  "/" ++ "/".intercalate path

/-- The directory that holds a path. -/
def parent (path : Path) : Path :=
  path.dropLast

/-- The last component. -/
def name (path : Path) : String :=
  path.getLast?.getD ""

/-- The path beside another that has a longer name. -/
def extendName (path : Path) (ending : String) : Path :=
  path.parent ++ [path.name ++ ending]

/-- Paths are listed in the order of their components, by code points. -/
def notAfter : Path → Path → Bool
  | [], _ => true
  | _ :: _, [] => false
  | first :: rest, other :: others =>
      if first = other then notAfter rest others else decide (first < other)

/-- One step along a route: up, or down to a component. -/
def step (path : Path) (part : String) : Path :=
  if part = ".." then path.dropLast else path ++ [part]

/-- A path that does not climb does not climb after further steps. -/
theorem notMem_foldl_step {path : Path} (normal : ".." ∉ path) (parts : List String) :
    ".." ∉ parts.foldl step path := by
  induction parts generalizing path with
  | nil => exact normal
  | cons part rest ih =>
      refine ih ?_
      rw [step]
      split
      · exact fun climbs => normal (List.dropLast_subset path climbs)
      · next down =>
          rw [List.mem_append, List.mem_singleton]
          rintro (climbs | climbs)
          · exact normal climbs
          · exact down climbs.symm

end Path

/-- Where a written path starts. -/
inductive Route.Start where
  /-- At some directory. -/
  | here
  /-- At the top. -/
  | top
  /-- At the top, with two slashes, which stay when it is shown. -/
  | doubleTop
deriving DecidableEq, Repr

/-- A path as it is written. -/
structure Route where
  start : Route.Start
  parts : List String
deriving DecidableEq, Repr

namespace Route

/-- Where a path starts that is written with so many slashes in front. -/
def Start.ofSlashes : Nat → Start
  | 0 => .here
  | 2 => .doubleTop
  | _ => .top

/-- What stands for a start in front of the parts. -/
def Start.text : Start → String
  | here => ""
  | top => "/"
  | doubleTop => "//"

/-- Whether a route starts at the top. -/
def isAbsolute (route : Route) : Bool :=
  route.start ≠ .here

/-- Whether a part of a written path moves anywhere. -/
def moves (part : String) : Bool :=
  part != "" && part != "."

/-- Reads a written path. Empty parts and single dots are left out. -/
def ofText (text : String) : Route :=
  { start := .ofSlashes (text.toList.takeWhile (· == '/')).length
    parts := ((pieces '/' text.toList).map String.ofList).filter moves }

/-- Whether files can have such names: none holds a zero character. -/
def isNameable (route : Route) : Bool :=
  route.parts.all fun part => !part.toList.contains '\x00'

/-- The route to a path from the top. -/
def ofPath (path : Path) : Route :=
  ⟨.top, path⟩

/-- A route as text. -/
def text (route : Route) : String :=
  match route.start, route.parts with
  | .here, [] => "."
  | start, parts => start.text ++ "/".intercalate parts

/-- A route taken from a directory, as a route from the top. -/
def under (base : Path) (route : Route) : Route :=
  if route.isAbsolute then route else ofPath (base ++ route.parts)

/-- The directory that holds what a route leads to. -/
def parent (route : Route) : Route :=
  { route with parts := route.parts.dropLast }

/-- The path that a route from a directory leads to, whatever exists on the way. -/
def resolve (base : Path) (route : Route) : Path :=
  route.parts.foldl Path.step (if route.isAbsolute then [] else base)

end Route

end EditGate

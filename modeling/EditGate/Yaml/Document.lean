import EditGate.Yaml.Making

/-!
# Documents of YAML

A document is one value. No mapping names a key twice, and numbers of the same value are the
same key. A list that is a key becomes a tuple.

Each collection is read off once, however many aliases stand for it. One that is a part of
itself is empty there.
-/

namespace EditGate.Yaml

/-- The values of the collections that were read off. -/
abbrev Reading := StateM (Array (Option Value))

/-- A set as a value. -/
def setValue (keys : List Value) : Value :=
  let text :=
    if keys.isEmpty then "set()"
    else "\x7b" ++ ", ".intercalate (Value.literals keys) ++ "\x7d"
  .special "set" text text

/-- The value of a collection, where that of its parts is read off in a given way. -/
def Content.value (read : Made → Reading Value) : Content → Reading Value
  | list items => return .list (← items.mapM read)
  | pairs items => return .list (← items.mapM fun (key, value) =>
      return .tuple [← read key, ← read value])
  | mapping entries => return .ofEntries (← entries.mapM fun (key, value) =>
      return (key, ← read value))
  | ordered entries => return .ordered (← entries.mapM fun (key, value) =>
      return (key, ← read value))
  | set keys => return setValue keys

/-- The value of a collection without its parts. -/
def Content.blank : Content → Value
  | list _ | pairs _ => .list []
  | mapping _ => .object []
  | ordered _ => .ordered []
  | set _ => setValue []

/-- The value of a part. A way through collections that meets none of them twice is no longer
than the fuel that is given. -/
def Making.readFrom (making : Making) : (fuel : Nat) → Made → Reading Value
  | 0, _ => return .null
  | _ + 1, .scalar value => return value
  | fuel + 1, .collection number => do
      match (← get).getD number none, making.progress.getD number .untouched with
      | some value, _ => return value
      | none, .made content =>
          modify (·.setIfInBounds number (some content.blank))
          let value ← content.value (making.readFrom fuel)
          modify (·.setIfInBounds number (some value))
          return value
      | none, _ => return .null

/-- The value of a graph. An empty document means nothing. -/
def Graph.value (graph : Graph) : Except Fault Value := do
  let count := graph.collections.size
  match graph.root with
  | none => .ok .null
  | some root =>
      let all : Make Made := do
        let made ← graph.make false root
        graph.makeWaiting graph.reach
        return made
      let (made, making) ← all.run { progress := Array.replicate count .untouched }
      .ok ((making.readFrom graph.reach made).run (Array.replicate count none)).1

/-- Reads a document. -/
def document (text : List Char) : Except Fault Value := do
  (← Graph.ofChars text).value

end EditGate.Yaml

import EditGate.Value.Table
import EditGate.Yaml.Merge

/-!
# Making the values of a graph

What stands at one depth of a document is made before what is nested in it: a collection gets
its place at once, and its parts are made when all collections before it have theirs. So if
several scalars have no meaning, the outermost of them is reported, and of those the first.

Keys are made as a whole. Only a key that is an alias may have to be taken as it is: if what it
stands for has its place and not its parts yet, it is empty.
-/

namespace EditGate.Yaml

/-- What was made of a part: the value of a scalar, or a collection by its number. -/
inductive Made where
  | scalar (value : Value)
  | collection (number : Nat)

/-- The value of a scalar. -/
def Made.value? : Made → Option Value
  | scalar value => some value
  | collection _ => none

/-- What a collection holds. -/
inductive Content where
  | list (items : List Made)
  | pairs (items : List (Made × Made))
  | mapping (entries : List (Value × Made))
  | ordered (entries : List (Value × Made))
  | set (keys : List Value)

/-- What a collection with a tag holds before its parts are made. -/
def Content.empty? : Tag → Option Content
  | .list => some (list [])
  | .pairs => some (pairs [])
  | .mapping => some (mapping [])
  | .orderedMapping => some (ordered [])
  | .set => some (set [])
  | _ => none

/-- How far a collection was made. -/
inductive Progress where
  | untouched
  /-- Its parts are being made for a key. -/
  | underway
  /-- It has its place, and perhaps its parts. -/
  | made (content : Content)

/-- How far a document was made. -/
structure Making where
  /-- The progress of each collection. -/
  progress : Array Progress
  /-- The collections whose parts are to be made, the latest first. -/
  waiting : List Nat := []

/-- Making the values of a document. -/
abbrev Make := StateT Making (Except Fault)

namespace Make

/-- The progress of a collection. -/
def progressOf (number : Nat) : Make Progress := do
  return (← get).progress.getD number .untouched

/-- Notes the progress of a collection. -/
def note (number : Nat) (progress : Progress) : Make Unit :=
  modify fun making =>
    { making with progress := making.progress.setIfInBounds number progress }

/-- Puts off making the parts of a collection. -/
def wait (number : Nat) : Make Unit :=
  modify fun making => { making with waiting := number :: making.waiting }

/-- A key. A list becomes a tuple, which is none if there are collections in it. Other
collections are never keys. -/
def asKey : Made → Make (Option Value)
  | .scalar value => return some value
  | .collection number => do
      match ← progressOf number with
      | .made (.list items) => return (items.mapM Made.value?).map Value.tuple
      | .made (.pairs items) =>
          let pair (item : Made × Made) : Option Value := do
            some (.tuple [← item.1.value?, ← item.2.value?])
          return (items.mapM pair).map Value.tuple
      | _ => throw .malformed

/-- Adds the entry of a mapping, where parts are made in a given way. A value is made even if
its key turns out to be none. Keys are given once, unless entries were merged; then the last
value counts. -/
def entry (make : (whole : Bool) → Node → Make Made) (whole merged : Bool)
    (found : List (Value × Made)) (key value : Node) : Make (List (Value × Made)) := do
  let key ← asKey (← make true key)
  let value ← make whole value
  match key with
  | none => throw .unusableKey
  | some key =>
      if !merged && Value.hasKey key found then throw .malformed
      else return Value.putEntry key value found

/-- Adds the entry of an ordered mapping. Its keys are taken as they are and given once. -/
def orderedEntry (make : Node → Make Made) (found : List (Value × Made)) (key value : Node) :
    Make (List (Value × Made)) := do
  match ← make key with
  | .collection _ => throw .unusableKey
  | .scalar key =>
      if Value.hasKey key found then throw .repeatedKey
      else return found ++ [(key, ← make value)]

end Make

namespace Graph

/-- The entry of a mapping that has one. -/
def single (graph : Graph) (node : Node) : Make (Node × Node) :=
  match node with
  | .collection number =>
      match graph.collections[number]? with
      | some (.mapping _ [entry]) => return entry
      | _ => throw .malformed
  | .scalar _ _ => throw .malformed

/-- The entries of a mapping by its number. -/
def settledEntries (graph : Graph) (make : (whole : Bool) → Node → Make Made) (whole : Bool)
    (number : Nat) : Make (List (Value × Made)) := do
  let entries ← graph.entries number
  entries.all.foldlM
    (fun found (key, value) => Make.entry make whole (!entries.merged.isEmpty) found key value) []

/-- What a collection holds, where parts are made in a given way. -/
def content (graph : Graph) (make : (whole : Bool) → Node → Make Made) (whole : Bool)
    (number : Nat) : Make Content := do
  match graph.collections[number]? with
  | some (.list .list items) => return .list (← items.mapM (make whole))
  | some (.list .pairs items) =>
      return .pairs (← items.mapM fun item => do
        let (key, value) ← graph.single item
        return (← make whole key, ← make whole value))
  | some (.list .orderedMapping items) =>
      return .ordered (← items.foldlM (fun found item => do
        let (key, value) ← graph.single item
        Make.orderedEntry (make whole) found key value) [])
  | some (.mapping .mapping _) => return .mapping (← graph.settledEntries make whole number)
  | some (.mapping .set _) =>
      return .set ((← graph.settledEntries make whole number).map Prod.fst)
  | _ => throw .malformed

/-- The text of a part with the tag of a scalar. That of a mapping is the value of its key for
the mapping itself. -/
def textFrom (graph : Graph) : (fuel : Nat) → Node → Except Fault String
  | 0, _ => .error .tooDeep
  | _ + 1, .scalar _ text => .ok text
  | fuel + 1, .collection number =>
      match graph.collections[number]? with
      | some (.mapping _ entries) =>
          match entries.find? fun (key, _) => graph.tag key = .itself with
          | some (_, value) => textFrom graph fuel value
          | none => .error .malformed
      | some (.scalar _ text) => .ok text
      | _ => .error .malformed

/-- What a collection with the tag of a scalar means. A day or a time is never one. -/
def scalarOf (graph : Graph) (tag : Tag) (number : Nat) : Except Fault Value :=
  if tag = .timestamp then .error .malformed
  else do scalarMeaning graph.older tag (← graph.textFrom graph.reach (.collection number))

/-- Makes a part, and all that is in it if it is to be made as a whole. Of a collection that is
underway, nothing is there yet. -/
def makeFrom (graph : Graph) : (fuel : Nat) → (whole : Bool) → Node → Make Made
  | 0, _, _ => throw .tooDeep
  | _ + 1, _, .scalar tag text => return .scalar (← scalarMeaning graph.older tag text)
  | fuel + 1, whole, .collection number => do
      let tag := graph.tag (.collection number)
      match ← Make.progressOf number, Content.empty? tag with
      | .made _, _ => return .collection number
      | .underway, _ => return .scalar .null
      | .untouched, none => return .scalar (← graph.scalarOf tag number)
      | .untouched, some empty =>
          if whole then
            Make.note number .underway
            Make.note number (.made (← graph.content (makeFrom graph fuel) whole number))
          else
            Make.note number (.made empty)
            Make.wait number
          return .collection number

/-- How deeply collections may be nested in a key. -/
def maxKeyDepth : Nat := 192

/-- Makes a part, and all that is in it if it is to be made as a whole. -/
def make (graph : Graph) (whole : Bool) (node : Node) : Make Made :=
  graph.makeFrom (min graph.reach maxKeyDepth) whole node

/-- Makes the parts of the collections that wait for them, and then those of the collections
met on the way. -/
def makeWaiting (graph : Graph) : (fuel : Nat) → Make Unit
  | 0 => return ()
  | fuel + 1 => do
      let waiting := (← get).waiting.reverse
      if waiting.isEmpty then return ()
      else
        modify fun making => { making with waiting := [] }
        waiting.forM fun number => do
          Make.note number (.made (← graph.content graph.make false number))
        graph.makeWaiting fuel

end Graph

end EditGate.Yaml

import EditGate.Yaml.Schema
import EditGate.Yaml.Stream

/-!
# The graph of a YAML document

Tokens are put together to tagged scalars, lists and mappings. What is left out, a key or a
value, is a plain scalar without text. Collections are numbered, and where one stands its
number does. So an alias is the number of what its anchor names, and a collection may be a part
of itself.

Tokens are asked for one at a time, in the order in which the graph needs them.
-/

namespace EditGate.Yaml

/-- A part of a document. -/
inductive Node where
  | scalar (tag : Tag) (text : String)
  /-- A collection, by its number. -/
  | collection (number : Nat)
deriving Inhabited

/-- A collection of parts. -/
inductive Collection where
  | list (tag : Tag) (items : List Node)
  | mapping (tag : Tag) (entries : List (Node × Node))
  /-- A scalar with the tag of a collection. -/
  | scalar (tag : Tag) (text : String)

/-- The tag of a collection. -/
def Collection.tag : Collection → Tag
  | list tag _ | mapping tag _ | scalar tag _ => tag

/-- A document: its outermost part, unless it is empty, and all collections by their numbers. -/
structure Graph where
  root : Option Node
  collections : Array Collection
  /-- Whether the older rules hold. -/
  older : Bool

/-- How far a document was put together. -/
structure Growth where
  stream : Stream
  collections : Array Collection := #[]
  /-- The parts with a name. -/
  anchors : Assoc String Node := []
  /-- What the handles of tags stand for that the document defines. -/
  handles : Assoc String String := []

/-- Building a graph out of the tokens of a text. -/
abbrev Build := StateT Growth (Except Fault)

namespace Build

/-- The next token. -/
def peek : Build Token := do
  let growth ← get
  let (token, stream) ← growth.stream.peek
  set { growth with stream := stream }
  return token

/-- Takes the next token. -/
def drop : Build Unit := do
  let growth ← get
  set { growth with stream := ← growth.stream.drop }

/-- The text is no document. -/
def fail {α : Type} : Build α :=
  throw .malformed

/-- Whether the rules are newer than the older ones. -/
def newer : Build Bool := do
  return (← get).stream.newer

/-- A plain scalar, tagged by its form. Only two versions of the rules are known. -/
def plainNode (text : String) : Build Node := do
  match (← get).stream.version with
  | none | some (1, 2) => return .scalar (plainTag false text) text
  | some (1, 1) => return .scalar (plainTag true text) text
  | some _ => throw .unknownWord

/-- What is left out. -/
def emptyNode : Build Node :=
  plainNode ""

/-- Gives a part its name. -/
def name (anchor : Option String) (node : Node) : Build Unit :=
  match anchor with
  | none => return ()
  | some anchor => modify fun growth =>
      { growth with anchors := Assoc.put anchor node growth.anchors }

/-- A collection with the next number. It has that and its name before its parts are built. -/
def collection (anchor : Option String) (tag : Tag) (build : Build Collection) : Build Node := do
  let number := (← get).collections.size
  modify fun growth => { growth with collections := growth.collections.push (.list tag []) }
  name anchor (.collection number)
  let built ← build
  modify fun growth =>
    { growth with collections := growth.collections.setIfInBounds number built }
  return .collection number

/-- A scalar with its name. One with the tag of a collection is numbered like these. -/
def scalarNode (anchor : Option String) (node : Node) : Build Node := do
  match node with
  | .scalar tag text =>
      if tag.isCollection then collection anchor tag (return .scalar tag text)
      else
        name anchor node
        return node
  | .collection _ => return node

/-- What the handle of a tag stands for. A document may define two of them anew. -/
def handleStart (handle : String) : Build String := do
  match Assoc.find? handle (← get).handles, handle with
  | some start, _ => return start
  | none, "!" => return "!"
  | none, "!!" => return Tag.standard
  | none, _ => fail

/-- A tag as it is written: its handle, if it has one, and its name. -/
abbrev WrittenTag := Option String × String

/-- The tag that is meant. A single mark leaves it to the form of the part. -/
def tagOf (written : WrittenTag) : Build (Option Tag) := do
  let start ← match written.1 with
    | none => pure ""
    | some handle => handleStart handle
  let fullName := start ++ String.ofList (unescaped written.2.toList)
  return if fullName = "!" then none else some (Tag.ofFullName fullName)

/-- What is said of a part in front of it. -/
structure Properties where
  anchor : Option String := none
  tag : Option WrittenTag := none

/-- Whether anything is said. -/
def Properties.any (properties : Properties) : Bool :=
  properties.anchor.isSome || properties.tag.isSome

/-- The anchor in front of a part, if there is one. -/
def anchor? : Build (Option String) := do
  match ← peek with
  | .anchor name => drop; return some name
  | _ => return none

/-- The tag in front of a part, if there is one. -/
def tag? : Build (Option WrittenTag) := do
  match ← peek with
  | .tag handle suffix => drop; return some (handle, suffix)
  | _ => return none

/-- The anchor and the tag in front of a part, in either order. -/
def properties : Build Properties := do
  match ← anchor? with
  | some anchor => return { anchor := anchor, tag := ← tag? }
  | none =>
      match ← tag? with
      | some tag => return { anchor := ← anchor?, tag := tag }
      | none => return {}

/-- How deeply collections may be nested. -/
def maxDepth : Nat := 485

mutual

/-- A part of the document. `block` allows block collections, and `compact` a list that is
not further in than what holds it. -/
def node (depth : Nat) (block compact : Bool) : (fuel : Nat) → Build Node
  | 0 => fail
  | fuel + 1 => do
      match ← peek with
      | .alias name =>
          drop
          match Assoc.find? name (← get).anchors with
          | some node => return node
          | none => fail
      | _ =>
          let properties ← properties
          let tag ← match properties.tag with
            | some written => tagOf written
            | none => pure none
          let list (items : Build (List Node)) : Build Node := do
            if maxDepth < depth then throw .tooDeep
            else
              let tag := tag.getD .list
              collection properties.anchor tag (return .list tag (← items))
          let mapping (entries : Build (List (Node × Node))) : Build Node := do
            if maxDepth < depth then throw .tooDeep
            else
              let tag := tag.getD .mapping
              collection properties.anchor tag (return .mapping tag (← entries))
          match ← peek, block, compact with
          | .blockItem, _, true => list (compactItems (depth + 1) fuel)
          | .scalar text plain, _, _ =>
              drop
              scalarNode properties.anchor (← match tag with
                | some tag => pure (.scalar tag text)
                | none =>
                    if plain || properties.tag.isSome then plainNode text
                    else pure (.scalar .str text))
          | .flowListStart, _, _ =>
              drop
              list (flowItems (depth + 1) true fuel)
          | .flowMappingStart, _, _ =>
              drop
              mapping (flowEntries (depth + 1) true fuel)
          | .blockListStart, true, _ =>
              drop
              list (blockItems (depth + 1) fuel)
          | .blockMappingStart, true, _ =>
              drop
              mapping (blockEntries (depth + 1) fuel)
          | _, _, _ =>
              if properties.any then
                scalarNode properties.anchor (← match tag with
                  | some tag => pure (.scalar tag "")
                  | none => emptyNode)
              else fail
termination_by structural fuel => fuel

/-- The items of a block list. -/
def blockItems (depth : Nat) : (fuel : Nat) → Build (List Node)
  | 0 => fail
  | fuel + 1 => do
      match ← peek with
      | .blockItem =>
          drop
          let item ← match ← peek with
            | .blockItem | .blockEnd => emptyNode
            | _ => node depth true false fuel
          return item :: (← blockItems depth fuel)
      | .blockEnd => drop; return []
      | _ => fail
termination_by structural fuel => fuel

/-- The items of a list that is not further in than what holds it. -/
def compactItems (depth : Nat) : (fuel : Nat) → Build (List Node)
  | 0 => fail
  | fuel + 1 => do
      match ← peek with
      | .blockItem =>
          drop
          let item ← match ← peek with
            | .blockItem | .key | .value | .blockEnd => emptyNode
            | _ => node depth true false fuel
          return item :: (← compactItems depth fuel)
      | _ => return []
termination_by structural fuel => fuel

/-- A key or a value of a block mapping. -/
def blockPart (depth : Nat) : (fuel : Nat) → Build Node
  | 0 => fail
  | fuel + 1 => do
      match ← peek with
      | .key | .value | .blockEnd => emptyNode
      | _ => node depth true true fuel
termination_by structural fuel => fuel

/-- The entries of a block mapping. -/
def blockEntries (depth : Nat) : (fuel : Nat) → Build (List (Node × Node))
  | 0 => fail
  | fuel + 1 => do
      let token ← peek
      if token = .blockEnd then
        drop
        return []
      else
        let key ←
          if token = .key then
            drop
            blockPart depth fuel
          else if token = .value && (← newer) then emptyNode
          else fail
        let value ←
          if (← peek) = .value then
            drop
            blockPart depth fuel
          else emptyNode
        return (key, value) :: (← blockEntries depth fuel)
termination_by structural fuel => fuel

/-- A key or a value of a flow collection that a token closes. -/
def flowPart (depth : Nat) (closing : Token) : (fuel : Nat) → Build Node
  | 0 => fail
  | fuel + 1 => do
      let token ← peek
      if token = .value || token = .flowItem || token = closing then emptyNode
      else node depth false false fuel
termination_by structural fuel => fuel

/-- The value behind a key of a flow collection. -/
def flowValue (depth : Nat) (closing : Token) : (fuel : Nat) → Build Node
  | 0 => fail
  | fuel + 1 => do
      if (← peek) = .value then
        drop
        let token ← peek
        if token = .flowItem || token = closing then emptyNode
        else node depth false false fuel
      else emptyNode
termination_by structural fuel => fuel

/-- The items of a flow list. A key makes a mapping of one entry. -/
def flowItems (depth : Nat) (first : Bool) : (fuel : Nat) → Build (List Node)
  | 0 => fail
  | fuel + 1 => do
      let token ← peek
      if token = .flowListEnd then
        drop
        return []
      else
        if !first then
          if token = .flowItem then drop else fail
        match ← peek with
        | .flowListEnd => drop; return []
        | .key =>
            drop
            let item ← collection none .mapping do
              let key ← flowPart (depth + 1) .flowListEnd fuel
              return .mapping .mapping [(key, ← flowValue (depth + 1) .flowListEnd fuel)]
            return item :: (← flowItems depth false fuel)
        | _ =>
            let item ← node depth false false fuel
            return item :: (← flowItems depth false fuel)
termination_by structural fuel => fuel

/-- The entries of a flow mapping. -/
def flowEntries (depth : Nat) (first : Bool) : (fuel : Nat) → Build (List (Node × Node))
  | 0 => fail
  | fuel + 1 => do
      let token ← peek
      if token = .flowMappingEnd then
        drop
        return []
      else
        if !first then
          if token = .flowItem then drop else fail
        let token ← peek
        if token = .flowMappingEnd then
          drop
          return []
        else
          let entry ←
            if token = .key then
              drop
              let key ← flowPart depth .flowMappingEnd fuel
              pure (key, ← flowValue depth .flowMappingEnd fuel)
            else if token = .value && (← newer) then
              let key ← emptyNode
              pure (key, ← flowValue depth .flowMappingEnd fuel)
            else
              let key ← node depth false false fuel
              pure (key, ← emptyNode)
          return entry :: (← flowEntries depth false fuel)
termination_by structural fuel => fuel

end

/-- The directives in front of a document. Each may be given once, and the version has to be
one of the first. -/
def directives (versioned : Bool) : (fuel : Nat) → Build Unit
  | 0 => fail
  | fuel + 1 => do
      match ← peek with
      | .directive (.version major _) =>
          if versioned || major != 1 then fail
          else
            drop
            directives true fuel
      | .directive (.handle handle meaning) =>
          if (Assoc.find? handle (← get).handles).isSome then fail
          else
            modify fun growth =>
              { growth with handles := Assoc.put handle meaning growth.handles }
            drop
            directives versioned fuel
      | .directive .reserved =>
          drop
          directives versioned fuel
      | _ => return ()

/-- Takes the marks that end a document. Under the older rules there may be more than one. -/
def endMarks : (fuel : Nat) → Build Unit
  | 0 => fail
  | fuel + 1 => do
      if (← peek) = .documentEnd then
        drop
        if (← get).stream.older then endMarks fuel

/-- The outermost part of a document, or nothing for an empty text. No second document may
follow. -/
def document (fuel : Nat) : Build (Option Node) := do
  let root ← match ← peek with
    | .textEnd => pure none
    | .directive _ | .documentStart =>
        directives false fuel
        if (← peek) = .documentStart then
          drop
          match ← peek with
          | .directive _ | .documentStart | .documentEnd | .textEnd => some <$> emptyNode
          | _ => some <$> node 0 true false fuel
        else fail
    | _ => some <$> node 0 true false fuel
  endMarks fuel
  if (← peek) = .textEnd then return root else fail

end Build

namespace Graph

/-- The graph of a text. Every step of building takes a token, and a character makes at most a
few of them. -/
def ofChars (chars : List Char) : Except Fault Graph :=
  if chars.all isAllowed then do
    let (root, growth) ← (Build.document (8 * chars.length + 64)).run { stream := .ofChars chars }
    .ok ⟨root, growth.collections, growth.stream.older⟩
  else .error .malformed

/-- The tag of a part. -/
def tag (graph : Graph) : Node → Tag
  | .scalar tag _ => tag
  | .collection number => (graph.collections[number]?.map Collection.tag).getD .unknown

/-- The number of collections, and one more: as many steps as a way has that goes from one
collection to another and meets none of them twice. -/
def reach (graph : Graph) : Nat :=
  graph.collections.size + 1

end Graph

end EditGate.Yaml

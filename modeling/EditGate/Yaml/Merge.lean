import EditGate.Yaml.Graph

/-!
# Merging mappings

The value of the merge key of a mapping is another mapping, or a list of them. Their entries
come before those that the mapping has of its own, which win over them.
-/

namespace EditGate.Yaml

/-- The entries of a mapping: those merged into it, and its own. -/
structure Entries where
  merged : List (Node × Node) := []
  own : List (Node × Node) := []

namespace Entries

/-- All entries of a mapping, the merged ones first. -/
def all (entries : Entries) : List (Node × Node) :=
  entries.merged ++ entries.own

/-- Adds an entry behind those of the mapping's own, while they are kept latest first. -/
def add (entries : Entries) (key value : Node) : Entries :=
  { entries with own := (key, value) :: entries.own }

end Entries

namespace Graph

/-- A key as it is looked up: the one for the mapping itself is a text. -/
def plainKey : Node → Node
  | .scalar .itself text => .scalar .str text
  | key => key

/-- The entries of a mapping by its number, sorted. The merge key may be given once, unless
nothing was merged before. Of several merged mappings the first wins, so it comes last. A
mapping that is merged into itself, being one of those around, adds its own entries once
more. -/
def entriesFrom (graph : Graph) :
    (fuel : Nat) → (around : List Nat) → (number : Nat) → Except Fault Entries
  | 0, _, _ => .error .tooDeep
  | fuel + 1, around, number => do
      let inner (node : Node) : Except Fault (List (Node × Node)) :=
        match node with
        | .collection other => do
            .ok (← entriesFrom graph fuel (number :: around) other).all
        | .scalar _ _ => .error .malformed
      let mergedFrom (node : Node) : Except Fault (List (Node × Node)) :=
        match node with
        | .collection other =>
            match graph.collections[other]? with
            | some (.list _ items) => do .ok (← items.mapM inner).reverse.flatten
            | _ => inner node
        | .scalar _ _ => .error .malformed
      match graph.collections[number]? with
      | some (.mapping _ entries) =>
          let found ← entries.foldlM (fun (found : Entries) (key, value) => do
            if graph.tag key = .merge then
              if around.contains number then .ok found
              else if found.merged.isEmpty then
                .ok { found with merged := ← mergedFrom value }
              else .error .malformed
            else .ok (found.add (plainKey key) value)) {}
          .ok { found with own := found.own.reverse }
      | _ => .error .malformed

/-- The entries of a mapping by its number, sorted. -/
def entries (graph : Graph) (number : Nat) : Except Fault Entries :=
  entriesFrom graph graph.reach [] number

end Graph

end EditGate.Yaml

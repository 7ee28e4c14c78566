import EditGate.Proofs.Files
import Mathlib

/-!
# Confinement and keys

A written path is shortened by three rules: a piece that says to stay is left out, a name goes
together with the step up right behind it, and a step up at the top leads nowhere. In whatever order
the rules are applied, one path is left in the end.

This path alone decides whether a file lies in a workspace and which key it has. Only a name that no
file can have, since it holds a zero character, is refused before that.
-/

namespace EditGate

/-! ## Shortening -/

/-- What a piece of a written path says. -/
inductive Move where
  | stay
  | up
  | down (name : String)
deriving DecidableEq, Repr

namespace Move

/-- The move that the characters between two slashes stand for. -/
def ofPiece (piece : List Char) : Move :=
  if piece = [] ∨ piece = ['.'] then .stay
  else if piece = ['.', '.'] then .up
  else .down (String.ofList piece)

/-- The moves that a text spells out. -/
def ofText (text : String) : List Move :=
  (pieces '/' text.toList).map ofPiece

/-- One application of a rule. -/
inductive Shortens : List Move → List Move → Prop
  | stay (before after : List Move) : Shortens (before ++ .stay :: after) (before ++ after)
  | back (before : List Move) (name : String) (after : List Move) :
      Shortens (before ++ .down name :: .up :: after) (before ++ after)
  | top (after : List Move) : Shortens (.up :: after) after

/-- Whether moves from the top can be shortened to the steps down a path. -/
def Normalises (moves : List Move) (path : Path) : Prop :=
  Relation.ReflTransGen Shortens moves (path.map .down)

/-- The path that moves lead to from another. -/
def walk (path : Path) : List Move → Path
  | [] => path
  | .stay :: rest => walk path rest
  | .up :: rest => walk path.dropLast rest
  | .down name :: rest => walk (path ++ [name]) rest

theorem walk_append (path : Path) (first second : List Move) :
    walk path (first ++ second) = walk (walk path first) second := by
  induction first generalizing path with
  | nil => rfl
  | cons move rest ih =>
      cases move with
      | stay => exact ih path
      | up => exact ih path.dropLast
      | down name => exact ih (path ++ [name])

theorem walk_map_down (path : Path) (names : List String) :
    walk path (names.map .down) = path ++ names := by
  induction names generalizing path with
  | nil => exact (List.append_nil path).symm
  | cons name rest ih =>
      rw [List.map_cons, walk, ih, List.append_assoc]
      rfl

/-- No rule changes where the moves lead. -/
theorem Shortens.walk_eq {moves fewer : List Move} (shortens : Shortens moves fewer) :
    walk [] moves = walk [] fewer := by
  cases shortens with
  | stay before after =>
      rw [walk_append, walk_append]
      rfl
  | back before name after =>
      rw [walk_append, walk_append, walk, walk, List.dropLast_concat]
  | top after => rfl

theorem walk_eq_of_shortens {moves fewer : List Move}
    (run : Relation.ReflTransGen Shortens moves fewer) : walk [] moves = walk [] fewer := by
  induction run with
  | refl => rfl
  | tail _ shortens ih => exact ih.trans shortens.walk_eq

/-- Once the moves so far are steps down, the next move is one more, or a rule takes it away. -/
theorem shortens_walk (path : Path) (moves : List Move) :
    Relation.ReflTransGen Shortens (path.map .down ++ moves) ((walk path moves).map .down) := by
  induction moves generalizing path with
  | nil =>
      rw [List.append_nil]
      exact .refl
  | cons move rest ih =>
      cases move with
      | stay => exact .head (.stay _ _) (ih path)
      | up =>
          refine .head ?_ (ih path.dropLast)
          rcases List.eq_nil_or_concat' path with rfl | ⟨names, name, rfl⟩
          · exact .top rest
          · rw [List.dropLast_concat, List.map_append, List.append_assoc]
            exact .back _ name rest
      | down name =>
          have further := ih (path ++ [name])
          rw [List.map_append, List.append_assoc] at further
          exact further

/-- Every list of moves comes to one path and to no other. -/
theorem normalises_iff {moves : List Move} {path : Path} :
    Normalises moves path ↔ path = walk [] moves := by
  constructor
  · intro normalises
    rw [walk_eq_of_shortens normalises, walk_map_down, List.nil_append]
  · rintro rfl
    exact shortens_walk [] moves

/-- The parts of a route lead where the moves of its pieces do. -/
theorem foldl_step_filter (chunks : List (List Char)) (path : Path) :
    ((chunks.map String.ofList).filter Route.moves).foldl Path.step path =
      walk path (chunks.map ofPiece) := by
  induction chunks generalizing path with
  | nil => rfl
  | cons piece rest ih =>
      rw [List.map_cons, List.map_cons, ofPiece]
      by_cases stays : piece = [] ∨ piece = ['.']
      · have unmoved : Route.moves (String.ofList piece) = false := by
          rcases stays with rfl | rfl <;> rfl
        rw [if_pos stays, List.filter_cons_of_neg (by simp [unmoved]), ih, walk]
      · have moves : Route.moves (String.ofList piece) = true := by
          simpa [Route.moves, ← String.toList_inj] using stays
        rw [if_neg stays, List.filter_cons_of_pos moves, List.foldl_cons, ih, Path.step]
        have climbs : String.ofList piece = ".." ↔ piece = ['.', '.'] := by
          rw [← String.toList_inj, String.toList_ofList]
          rfl
        simp only [climbs]
        split
        · rw [walk]
        · rw [walk]

end Move

/-! ## Names -/

/-- Separating a text loses only the separators. -/
theorem exists_mem_pieces_iff (separator : Char) {char : Char} (different : char ≠ separator)
    (text : List Char) : (∃ piece ∈ pieces separator text, char ∈ piece) ↔ char ∈ text := by
  induction text with
  | nil => simp [pieces]
  | cons first rest ih =>
      rw [pieces, List.mem_cons, ← ih]
      split
      next same => simp [same, different]
      · cases pieces separator rest with
        | nil => simp
        | cons piece others => simp [or_assoc]

namespace Route

theorem Start.ofSlashes_eq_here_iff (count : Nat) : ofSlashes count = .here ↔ count = 0 := by
  rcases count with _ | _ | _ | count <;> simp [ofSlashes]

theorem isAbsolute_ofText (text : String) :
    (ofText text).isAbsolute = true ↔ text.toList.head? = some '/' := by
  rw [isAbsolute, decide_eq_true_iff, ofText, ne_eq, Start.ofSlashes_eq_here_iff]
  cases text.toList with
  | nil => simp
  | cons char rest => by_cases slash : char = '/' <;> simp [slash]

/-- A file can have a name exactly if no zero character is in it. -/
theorem isNameable_ofText (text : String) :
    (ofText text).isNameable = true ↔ '\x00' ∉ text.toList := by
  rw [← exists_mem_pieces_iff '/' (by decide)]
  simp only [isNameable, ofText, List.all_eq_true, List.mem_filter, List.mem_map]
  constructor
  · rintro clean ⟨piece, member, zero⟩
    have moving : moves (String.ofList piece) = true := by
      simp only [moves, Bool.and_eq_true, bne_iff_ne, ne_eq, ← String.toList_inj,
        String.toList_ofList]
      constructor <;> rintro rfl <;> revert zero <;> decide
    simpa [zero] using clean _ ⟨⟨piece, member, rfl⟩, moving⟩
  · rintro clean _ ⟨⟨piece, member, rfl⟩, _⟩
    simpa using fun zero => clean ⟨piece, member, zero⟩

end Route

namespace Workspace

/-- The moves from the top that a name stands for. -/
def moves (workspace : Workspace) (name : String) : List Move :=
  if name.toList.head? = some '/' then Move.ofText name
  else workspace.root.map .down ++ Move.ofText name

/-- Whether a name comes to a path when it is shortened. -/
def Means (workspace : Workspace) (name : String) (path : Path) : Prop :=
  Move.Normalises (workspace.moves name) path

variable {workspace : Workspace} {name other : String} {path place : Path}

theorem means_iff :
    workspace.Means name path ↔ path = (Route.ofText name).resolve workspace.root := by
  have steps (base : Path) : (Route.ofText name).parts.foldl Path.step base =
      Move.walk base (Move.ofText name) :=
    Move.foldl_step_filter _ base
  rw [Means, Move.normalises_iff, moves, Route.resolve]
  by_cases absolute : name.toList.head? = some '/'
  · rw [if_pos absolute, if_pos ((Route.isAbsolute_ofText name).2 absolute), steps]
  · rw [if_neg absolute, if_neg (mt (Route.isAbsolute_ofText name).1 absolute), steps,
      Move.walk_append, Move.walk_map_down, List.nil_append]

theorem means_resolve (workspace : Workspace) (name : String) :
    workspace.Means name ((Route.ofText name).resolve workspace.root) :=
  means_iff.2 rfl

/-- A name is judged by its characters first and then by the path that it comes to. -/
theorem Means.resolve_eq (means : workspace.Means name path) :
    workspace.resolve name =
      if '\x00' ∈ name.toList then .error .unnameable
      else if workspace.root <+: path then .ok path
      else .error (.outside workspace name) := by
  simp only [resolve, ← means_iff.1 means, List.isPrefixOf_iff_prefix, Bool.not_eq_true',
    ← Bool.not_eq_true, Route.isNameable_ofText, not_not]

theorem leads_iff :
    workspace.Leads name path ↔
      '\x00' ∉ name.toList ∧ workspace.Means name path ∧ workspace.root <+: path := by
  rw [Leads, (means_resolve workspace name).resolve_eq, means_iff]
  split
  next zero => simp [zero]
  next clean =>
    split
    next inside =>
      rw [Except.ok.injEq]
      constructor
      · rintro rfl
        exact ⟨clean, rfl, inside⟩
      · rintro ⟨_, rfl, _⟩
        rfl
    next outside =>
      constructor
      · intro refused
        cases refused
      · rintro ⟨_, rfl, inside⟩
        exact absurd inside outside

/-! ## Keys -/

/-- Whether a part of a path is a name, and neither empty nor a move of another kind. -/
def IsProper (part : String) : Prop :=
  part ≠ "" ∧ part ≠ "." ∧ part ≠ ".."

/-- Whether a key spells out a path from the workspace: a dot stands for the workspace itself, and
else the parts have slashes between them. -/
inductive Spells : Path → String → Prop
  | root : Spells [] "."
  | below {parts : Path} {key : String} (nonempty : parts ≠ [])
      (proper : ∀ part ∈ parts, IsProper part)
      (spelled : pieces '/' key.toList = parts.map String.toList) : Spells parts key

namespace Spells

variable {parts : Path} {key : String}

theorem ofPiece_toList {part : String} (proper : IsProper part) :
    Move.ofPiece part.toList = .down part := by
  obtain ⟨nonempty, moves, goesDown⟩ := proper
  rw [Move.ofPiece, if_neg, if_neg, String.ofList_toList]
  · exact fun up => goesDown (String.toList_inj.1 up)
  · rintro (empty | dot)
    · exact nonempty (String.toList_inj.1 empty)
    · exact moves (String.toList_inj.1 dot)

/-- A key starts with no slash. -/
theorem head?_ne (spells : Spells parts key) : key.toList.head? ≠ some '/' := by
  cases spells with
  | root => decide
  | below nonempty proper spelled =>
      intro slash
      obtain ⟨rest, starts⟩ := List.head?_eq_some_iff.1 slash
      cases parts with
      | nil => exact nonempty rfl
      | cons part others =>
          rw [starts, pieces, if_pos rfl, List.map_cons, List.cons.injEq] at spelled
          exact (proper part List.mem_cons_self).1 (String.toList_inj.1 spelled.1.symm)

/-- There is nothing to shorten in a key, but for the dot that stands for the workspace. -/
theorem means (spells : Spells parts key) (workspace : Workspace) :
    workspace.Means key (workspace.root ++ parts) := by
  rw [Means, Move.Normalises, moves, if_neg spells.head?_ne, List.map_append]
  cases spells with
  | root => exact .single (.stay _ [])
  | below nonempty proper spelled =>
      have moves : Move.ofText key = parts.map .down := by
        rw [Move.ofText, spelled, List.map_map]
        exact List.map_congr_left fun part member => ofPiece_toList (proper part member)
      rw [moves]

/-- What is in no part is not in the key, unless it is a slash or a dot. -/
theorem zero_notMem (spells : Spells parts key) (clean : ∀ part ∈ parts, '\x00' ∉ part.toList) :
    '\x00' ∉ key.toList := by
  cases spells with
  | root => decide
  | below nonempty proper spelled =>
      rw [← exists_mem_pieces_iff '/' (by decide), spelled]
      rintro ⟨piece, member, zero⟩
      obtain ⟨part, found, rfl⟩ := List.mem_map.1 member
      exact clean part found zero

end Spells

/-- The key of a file spells out its path from the workspace. -/
theorem Leads.spells (leads : workspace.Leads name path) :
    Spells (path.drop workspace.root.length) (workspace.keyAt path) := by
  rw [keyAt]
  by_cases top : path.drop workspace.root.length = []
  · rw [top]
    exact .root
  · refine .below top (fun part found => ?_) ?_
    · obtain ⟨nonempty, moves, _⟩ := Route.of_mem_parts_ofText (leads.mem_parts found)
      refine ⟨nonempty, moves, ?_⟩
      rintro rfl
      exact leads.normal (List.mem_of_mem_drop found)
    · rw [pieces_eq_splitOn]
      exact splitOn_keyText top fun _ found => (leads.of_mem_drop found).2

theorem Leads.eq_root_append (leads : workspace.Leads name path) :
    path = workspace.root ++ path.drop workspace.root.length := by
  obtain ⟨below, rfl⟩ := leads.eq_resolve.2
  rw [List.drop_left]

/-- The key of a file is a name of it. -/
theorem Leads.leads_keyAt (leads : workspace.Leads name path) :
    workspace.Leads (workspace.keyAt path) path := by
  have clean : ∀ part ∈ (Route.ofText name).parts, '\x00' ∉ part.toList := by
    simpa [Route.isNameable] using leads.isNameable
  have means := leads.spells.means workspace
  rw [← leads.eq_root_append] at means
  refine leads_iff.2 ⟨?_, means, leads.eq_resolve.2⟩
  exact leads.spells.zero_notMem fun part found => clean part (leads.mem_parts found)

/-! ## The account -/

/-- What the names of files come to in a workspace. -/
structure Confines (workspace : Workspace) : Prop where
  /-- Every name comes to one path, whatever is shortened first. -/
  existsUnique_means : ∀ name, ∃! path, workspace.Means name path
  /-- A name that holds a zero character is refused for that, -/
  resolve_eq_unnameable_iff : ∀ name,
    workspace.resolve name = .error .unnameable ↔ '\x00' ∈ name.toList
  /-- any other is refused exactly if its path is neither the workspace nor below it, -/
  resolve_eq_outside_iff : ∀ name path, workspace.Means name path →
    (workspace.resolve name = .error (.outside workspace name) ↔
      '\x00' ∉ name.toList ∧ ¬ workspace.root <+: path)
  /-- and else leads to its path and has a key. -/
  resolve_eq_ok_iff : ∀ name path, workspace.resolve name = .ok path ↔
    '\x00' ∉ name.toList ∧ workspace.Means name path ∧ workspace.root <+: path
  exists_key_iff : ∀ name,
    (∃ key, workspace.key name = .ok key) ↔ ∃ path, workspace.resolve name = .ok path
  /-- The key spells out the path from the workspace, -/
  key_spells : ∀ name key, workspace.key name = .ok key →
    ∃ below, workspace.Means name (workspace.root ++ below) ∧ Spells below key
  /-- is its own key, -/
  key_key : ∀ name key, workspace.key name = .ok key → workspace.key key = .ok key
  /-- and is shared by exactly those names that come to the same path. -/
  key_eq_iff : ∀ name other key second, workspace.key name = .ok key →
    workspace.key other = .ok second →
    (key = second ↔ ∃ path, workspace.Means name path ∧ workspace.Means other path)

/-- Names are confined to the workspace and told apart by what they come to. -/
theorem confines (workspace : Workspace) : workspace.Confines := by
  constructor
  case existsUnique_means =>
    intro name
    exact ⟨_, means_resolve workspace name, fun path means => means_iff.1 means⟩
  case resolve_eq_unnameable_iff =>
    intro name
    rw [(means_resolve workspace name).resolve_eq]
    split
    next zero => simp [zero]
    next clean => split <;> simp [clean]
  case resolve_eq_outside_iff =>
    intro name path means
    rw [means.resolve_eq]
    split
    next zero => simp [zero]
    next clean => split <;> simp_all
  case resolve_eq_ok_iff =>
    intro name path
    exact leads_iff
  case exists_key_iff =>
    intro name
    constructor
    · rintro ⟨key, keyed⟩
      obtain ⟨path, leads, _⟩ := exists_leads_of_key keyed
      exact ⟨path, leads⟩
    · rintro ⟨path, leads⟩
      exact ⟨_, Leads.key_eq leads⟩
  case key_spells =>
    intro name key keyed
    obtain ⟨path, leads, rfl⟩ := exists_leads_of_key keyed
    refine ⟨path.drop workspace.root.length, ?_, leads.spells⟩
    rw [← leads.eq_root_append]
    exact (leads_iff.1 leads).2.1
  case key_key =>
    intro name key keyed
    obtain ⟨path, leads, rfl⟩ := exists_leads_of_key keyed
    exact leads.leads_keyAt.key_eq
  case key_eq_iff =>
    intro name other key second keyed keyedToo
    obtain ⟨path, leads, rfl⟩ := exists_leads_of_key keyed
    obtain ⟨place, also, rfl⟩ := exists_leads_of_key keyedToo
    have means := (leads_iff.1 leads).2.1
    have meansToo := (leads_iff.1 also).2.1
    constructor
    · intro same
      have one := leads.eq_of_keyAt_eq also same
      exact ⟨path, means, one ▸ meansToo⟩
    · rintro ⟨common, first, last⟩
      rw [means_iff.1 means, ← means_iff.1 first, means_iff.1 meansToo, ← means_iff.1 last]

/-- A zero character is refused before the place is looked at, so that a name that leads outside is
not refused for that, and one that leads to a file has no key. -/
theorem refused_for_zero :
    ((ofPath ["w"]).Means "../\x00" ["\x00"] ∧ ¬ (ofPath ["w"]).root <+: ["\x00"] ∧
      (ofPath ["w"]).resolve "../\x00" ≠ .error (.outside (ofPath ["w"]) "../\x00")) ∧
    (ofPath ["w"]).Means "\x00" ["w", "\x00"] ∧ (ofPath ["w"]).root <+: ["w", "\x00"] ∧
      (ofPath ["w"]).key "\x00" = .error .unnameable := by
  refine ⟨⟨means_iff.2 ?_, ?_, ?_⟩, means_iff.2 ?_, ?_, rfl⟩
  · decide +kernel
  · decide +kernel
  · intro refused
    cases refused
  · decide +kernel
  · decide +kernel

end Workspace

end EditGate

import EditGate.Proofs.Reading
import Mathlib

/-!
# Matching brackets

An opening and a closing bracket are partners if the brackets between them are balanced,
whatever their families. This speaks of places alone and of no stack. The balance of brackets
reads them from left to right against a stack, where a closing bracket takes the innermost open
one even if it is of another family. It finds just the partners: the innermost open bracket is
the partner of a closing one that comes next, and what is open in the end has no partner.
-/

namespace EditGate

/-- The order of places in a text. -/
def Position.Precedes (first second : Position) : Prop :=
  first.line < second.line ∨ first.line = second.line ∧ first.column < second.column

theorem Position.Precedes.ne {first second : Position} (precedes : first.Precedes second) :
    first ≠ second := by
  rintro rfl
  unfold Precedes at precedes
  omega

namespace Lua

/-! ## Partners -/

/-- A word of brackets that close one another, where `fits` says which families do. -/
inductive Nested (fits : Family → Family → Prop) : List (Bracket × Position) → Prop
  | nil : Nested fits []
  | enclose {opening closing : Family} {openedAt closedAt : Position}
      {inner after : List (Bracket × Position)} :
      fits opening closing → Nested fits inner → Nested fits after →
      Nested fits
        ((.opening opening, openedAt) :: (inner ++ (.closing closing, closedAt) :: after))

/-- A word of brackets that close one another, whatever their families. -/
abbrev Balanced : List (Bracket × Position) → Prop :=
  Nested fun _ _ => True

/-- A word of brackets that close one another, each one of its own family. -/
abbrev WellNested : List (Bracket × Position) → Prop :=
  Nested Eq

/-- An open bracket as it stands in the text. -/
def BracketAt.token (bracket : BracketAt) : Bracket × Position :=
  (.opening bracket.family, bracket.opened)

/-- The closing bracket has the opening one as its partner: what stands between them is
balanced. -/
def Partners (word : List (Bracket × Position)) (opener : BracketAt) (closing : Family)
    (closedAt : Position) : Prop :=
  ∃ before inner after,
    word = before ++ opener.token :: (inner ++ (.closing closing, closedAt) :: after) ∧
      Balanced inner

theorem Nested.append {fits : Family → Family → Prop} {first second : List (Bracket × Position)}
    (left : Nested fits first) (right : Nested fits second) : Nested fits (first ++ second) := by
  induction left with
  | nil => exact right
  | enclose fit inner _ _ ih =>
      simp only [List.cons_append, List.append_assoc]
      exact .enclose fit inner ih

/-! ## One bracket after the other -/

section Reading

variable (state : BracketState)

/-- What is reported of a closing bracket, by the innermost open one. -/
def rejection? (innermost : Option BracketAt) (closing : Family) (closedAt : Position) :
    Option Finding :=
  match innermost with
  | none => some { cause := .extraBracket closing, position := closedAt }
  | some top =>
      if top.family = closing then none
      else some { cause := .wrongBracket closing top.family top.opened, position := closedAt }

namespace BracketState

theorem stack_step_opening (opening : Family) (openedAt : Position) :
    (state.step (.opening opening) openedAt).stack = ⟨opening, openedAt⟩ :: state.stack :=
  rfl

theorem findings_step_opening (opening : Family) (openedAt : Position) :
    (state.step (.opening opening) openedAt).findings = state.findings :=
  rfl

/-- A closing bracket takes the innermost open one, of whatever family. -/
theorem stack_step_closing (closing : Family) (closedAt : Position) :
    (state.step (.closing closing) closedAt).stack = state.stack.tail := by
  obtain ⟨stack, findings⟩ := state
  cases stack with
  | nil => rfl
  | cons top rest =>
      simp only [step]
      split <;> rfl

theorem findings_step_closing (closing : Family) (closedAt : Position) :
    (state.step (.closing closing) closedAt).findings =
      (rejection? state.stack.head? closing closedAt).toList ++ state.findings := by
  obtain ⟨stack, findings⟩ := state
  cases stack with
  | nil => rfl
  | cons top rest =>
      simp only [step, rejection?, List.head?_cons]
      split <;> rfl

end BracketState

/-- Over a balanced word, the open brackets stay the same. -/
theorem stack_readBrackets_balanced {word : List (Bracket × Position)} (balanced : Balanced word) :
    (readBrackets state word).stack = state.stack := by
  induction balanced generalizing state with
  | nil => rfl
  | enclose _ _ _ inner after =>
      rw [readBrackets_cons, readBrackets_append, readBrackets_cons, after,
        BracketState.stack_step_closing, inner, BracketState.stack_step_opening, List.tail_cons]

/-- What was reported stays reported. -/
theorem findings_suffix_readBrackets (word : List (Bracket × Position)) :
    state.findings <:+ (readBrackets state word).findings := by
  induction word generalizing state with
  | nil => exact List.suffix_refl _
  | cons found rest ih =>
      obtain ⟨bracket, position⟩ := found
      refine List.IsSuffix.trans ?_ (ih (state.step bracket position))
      cases bracket with
      | opening family => exact List.suffix_refl _
      | closing family =>
          rw [state.findings_step_closing]
          exact List.suffix_append _ _

/-- The open brackets stand in the text, the innermost last. -/
theorem tokens_sublist_readBrackets (word : List (Bracket × Position)) :
    ((readBrackets state word).stack.reverse.map BracketAt.token).Sublist
      (state.stack.reverse.map BracketAt.token ++ word) := by
  induction word generalizing state with
  | nil => rw [List.append_nil]; exact List.Sublist.refl _
  | cons found rest ih =>
      obtain ⟨bracket, position⟩ := found
      refine (ih (state.step bracket position)).trans ?_
      cases bracket with
      | opening family =>
          rw [state.stack_step_opening, List.reverse_cons, List.map_append, List.append_assoc]
          exact List.Sublist.refl _
      | closing family =>
          rw [state.stack_step_closing]
          refine List.Sublist.append ?_ (List.sublist_cons_self _ _)
          exact ((List.tail_sublist _).reverse).map _

theorem position_of_rejection? {innermost : Option BracketAt} {closing : Family}
    {closedAt : Position} {finding : Finding}
    (rejected : rejection? innermost closing closedAt = some finding) :
    finding.position = closedAt := by
  cases innermost with
  | none =>
      cases rejected
      rfl
  | some top =>
      rw [rejection?] at rejected
      split at rejected
      · cases rejected
      · cases rejected
        rfl

/-- Each closing bracket is reported once at most, in the order of the text. -/
theorem positions_sublist_readBrackets (word : List (Bracket × Position)) :
    ((readBrackets state word).findings.reverse.map (·.position)).Sublist
      (state.findings.reverse.map (·.position) ++ word.map Prod.snd) := by
  induction word generalizing state with
  | nil => rw [List.map_nil, List.append_nil]; exact List.Sublist.refl _
  | cons found rest ih =>
      obtain ⟨bracket, position⟩ := found
      refine (ih (state.step bracket position)).trans ?_
      cases bracket with
      | opening family =>
          rw [state.findings_step_opening]
          exact List.Sublist.append (List.Sublist.refl _) (List.sublist_cons_self _ _)
      | closing family =>
          rw [state.findings_step_closing, List.reverse_append, List.map_append,
            List.append_assoc]
          refine List.Sublist.append (List.Sublist.refl _) ?_
          cases rejected : rejection? state.stack.head? family position with
          | none => exact List.sublist_cons_self _ _
          | some finding =>
              rw [Option.toList_some, List.reverse_singleton, List.map_singleton,
                position_of_rejection? rejected]
              exact List.Sublist.refl _

/-- Something is reported just where a closing bracket is rejected. -/
theorem mem_findings_readBrackets_iff (word : List (Bracket × Position)) (finding : Finding) :
    finding ∈ (readBrackets state word).findings ↔
      finding ∈ state.findings ∨ ∃ before closing closedAt after,
        word = before ++ (.closing closing, closedAt) :: after ∧
          rejection? (readBrackets state before).stack.head? closing closedAt = some finding := by
  induction word generalizing state with
  | nil => simp [readBrackets]
  | cons found rest ih =>
      obtain ⟨bracket, position⟩ := found
      rw [readBrackets_cons, ih]
      constructor
      · rintro (now | ⟨before, closing, closedAt, after, rfl, rejected⟩)
        · cases bracket with
          | opening family => exact .inl now
          | closing family =>
              rw [state.findings_step_closing, List.mem_append, Option.mem_toList] at now
              rcases now with rejected | old
              · exact .inr ⟨[], family, position, rest, rfl, rejected⟩
              · exact .inl old
        · exact .inr ⟨(bracket, position) :: before, closing, closedAt, after, rfl, rejected⟩
      · rintro (old | ⟨before, closing, closedAt, after, split, rejected⟩)
        · exact .inl ((findings_suffix_readBrackets state [(bracket, position)]).mem old)
        · cases before with
          | nil =>
              cases split
              left
              rw [state.findings_step_closing, List.mem_append, Option.mem_toList]
              exact .inl rejected
          | cons first before =>
              cases split
              exact .inr ⟨before, closing, closedAt, after, rfl, rejected⟩

/-- An open bracket that is not open later was the innermost one when a closing one came. -/
theorem exists_closing_of_not_mem {state : BracketState} {opener : BracketAt}
    {word : List (Bracket × Position)} (present : opener ∈ state.stack)
    (absent : opener ∉ (readBrackets state word).stack) :
    ∃ before closing closedAt after, word = before ++ (.closing closing, closedAt) :: after ∧
      (readBrackets state before).stack.head? = some opener := by
  induction word generalizing state with
  | nil => exact absurd present absent
  | cons found rest ih =>
      obtain ⟨bracket, position⟩ := found
      by_cases still : opener ∈ (state.step bracket position).stack
      · obtain ⟨before, closing, closedAt, after, rfl, innermost⟩ := ih still absent
        exact ⟨(bracket, position) :: before, closing, closedAt, after, rfl, innermost⟩
      · cases bracket with
        | opening family => exact absurd (List.mem_cons_of_mem _ present) still
        | closing family =>
            rw [state.stack_step_closing] at still
            refine ⟨[], family, position, rest, rfl, ?_⟩
            change state.stack.head? = some opener
            cases stack : state.stack with
            | nil =>
                rw [stack] at present
                cases present
            | cons top under =>
                rw [stack] at present still
                obtain rfl := (List.mem_cons.1 present).resolve_right still
                rfl

end Reading

/-! ## The stack and the partners -/

/-- A word and the brackets that are open at its end: behind each of them the word is balanced
up to the next one, and if nothing is reported, so it is before all of them. -/
inductive Layers : List (Bracket × Position) → List BracketAt → Prop
  | ground {word : List (Bracket × Position)} :
      ((readBrackets {} word).findings = [] → Balanced word) → Layers word []
  | layer {before inner : List (Bracket × Position)} {rest : List BracketAt} (top : BracketAt) :
      Layers before rest → Balanced inner → Layers (before ++ top.token :: inner) (top :: rest)

namespace Layers

variable {word : List (Bracket × Position)} {stack : List BracketAt}

theorem append_balanced (layers : Layers word stack) {group : List (Bracket × Position)}
    (balanced : Balanced group) : Layers (word ++ group) stack := by
  cases layers with
  | ground floor =>
      refine .ground fun unreported => Nested.append (floor ?_) balanced
      have kept := findings_suffix_readBrackets (readBrackets {} word) group
      rw [← readBrackets_append, unreported] at kept
      exact List.suffix_nil.1 kept
  | layer top below inner =>
      rw [List.append_assoc, List.cons_append]
      exact .layer top below (inner.append balanced)

/-- A closing bracket makes the innermost layer a balanced part of the one below. -/
theorem close (layers : Layers word stack) (reached : (readBrackets {} word).stack = stack)
    (closing : Family) (closedAt : Position) :
    Layers (word ++ [(.closing closing, closedAt)]) stack.tail := by
  cases layers with
  | ground floor =>
      refine .ground fun unreported => ?_
      have rejected := (readBrackets {} word).findings_step_closing closing closedAt
      rw [reached] at rejected
      rw [readBrackets_append] at unreported
      exact absurd (rejected.symm.trans unreported) (List.cons_ne_nil _ _)
  | layer top below inner =>
      rw [List.append_assoc, List.cons_append]
      exact below.append_balanced (.enclose trivial inner .nil)

end Layers

/-- Every word is layered by the brackets that its reading leaves open. -/
theorem layers_readBrackets (word : List (Bracket × Position)) :
    Layers word (readBrackets {} word).stack := by
  induction word using List.reverseRecOn with
  | nil => exact .ground fun _ => .nil
  | append_singleton word last ih =>
      obtain ⟨bracket, position⟩ := last
      rw [readBrackets_append, readBrackets_cons]
      cases bracket with
      | opening family => exact .layer ⟨family, position⟩ ih .nil
      | closing family =>
          have closed := ih.close rfl family position
          rwa [← BracketState.stack_step_closing _ family position] at closed

/-- In a word without repetitions, a bracket has one place. -/
theorem eq_of_split_eq {word before after first later : List (Bracket × Position)}
    {found : Bracket × Position} (distinct : word.Nodup) (split : word = before ++ found :: after)
    (other : word = first ++ found :: later) : before = first := by
  rw [split, List.nodup_middle, List.nodup_cons, List.mem_append, not_or] at distinct
  exact ((List.append_cons_inj_of_notMem distinct.1.1 distinct.1.2).1 (split.symm.trans other)).1

section Partners

variable {word before after : List (Bracket × Position)} {closing : Family} {closedAt : Position}

/-- The innermost open bracket is the partner of a closing one that comes next. -/
theorem partners_iff_head? (distinct : word.Nodup)
    (split : word = before ++ (.closing closing, closedAt) :: after) (opener : BracketAt) :
    Partners word opener closing closedAt ↔
      (readBrackets {} before).stack.head? = some opener := by
  constructor
  · rintro ⟨first, inner, later, whole, balanced⟩
    have apart : word =
        (first ++ opener.token :: inner) ++ (.closing closing, closedAt) :: later := by
      rw [whole, List.append_assoc, List.cons_append]
    rw [eq_of_split_eq distinct split apart, readBrackets_append, readBrackets_cons,
      stack_readBrackets_balanced _ balanced]
    rfl
  · intro innermost
    have layers := layers_readBrackets before
    cases stack : (readBrackets {} before).stack with
    | nil =>
        rw [stack] at innermost
        cases innermost
    | cons top rest =>
        rw [stack] at innermost layers
        cases innermost
        cases layers with
        | layer _ below inner => exact ⟨_, _, after, by rw [split, List.append_assoc]; rfl, inner⟩

/-- Behind its partner, a bracket is not open any more. -/
theorem not_mem_stack_of_partners (distinct : word.Nodup) {opener : BracketAt}
    (partners : Partners word opener closing closedAt) :
    opener ∉ (readBrackets {} word).stack := by
  obtain ⟨before, inner, after, rfl, balanced⟩ := partners
  intro isOpen
  -- The partner takes the stack back to what it was before the opening bracket.
  have back : (readBrackets (readBrackets {} before)
      (opener.token :: (inner ++ [(.closing closing, closedAt)]))).stack =
        (readBrackets {} before).stack :=
    stack_readBrackets_balanced _ (.enclose trivial balanced .nil)
  have outside : opener.token ∈ before ++ after := by
    have behind := tokens_sublist_readBrackets (readBrackets (readBrackets {} before)
      (opener.token :: (inner ++ [(.closing closing, closedAt)]))) after
    rw [back, ← readBrackets_append, ← readBrackets_append, List.cons_append,
      List.append_assoc] at behind
    have earlier := (tokens_sublist_readBrackets {} before).append (List.Sublist.refl after)
    exact (behind.trans earlier).mem (List.mem_map_of_mem (List.mem_reverse.2 isOpen))
  rw [List.nodup_middle, List.nodup_cons] at distinct
  apply distinct.1
  rw [List.mem_append] at outside ⊢
  rcases outside with early | late
  · exact .inl early
  · exact .inr (List.mem_append_right _ (List.mem_cons_of_mem _ late))

/-- A bracket is open in the end exactly if it has no partner. -/
theorem mem_stack_readBrackets_iff (distinct : word.Nodup) (opener : BracketAt) :
    opener ∈ (readBrackets {} word).stack ↔
      opener.token ∈ word ∧ ∀ closing closedAt, ¬ Partners word opener closing closedAt := by
  constructor
  · intro isOpen
    refine ⟨?_, fun closing closedAt partners =>
      not_mem_stack_of_partners distinct partners isOpen⟩
    exact (tokens_sublist_readBrackets {} word).mem
      (List.mem_map_of_mem (List.mem_reverse.2 isOpen))
  · rintro ⟨inText, alone⟩
    obtain ⟨before, after, rfl⟩ := List.append_of_mem inText
    by_contra closed
    rw [readBrackets_append, readBrackets_cons] at closed
    obtain ⟨between, closing, closedAt, later, rfl, innermost⟩ :=
      exists_closing_of_not_mem List.mem_cons_self closed
    have split : before ++ opener.token :: (between ++ (.closing closing, closedAt) :: later) =
        (before ++ opener.token :: between) ++ (.closing closing, closedAt) :: later := by
      rw [List.append_assoc, List.cons_append]
    refine alone closing closedAt ((partners_iff_head? distinct split opener).2 ?_)
    rw [readBrackets_append]
    exact innermost

/-- What is reported on the way: the partners of different families, and the closing brackets
without a partner. -/
theorem mem_findings_iff_partners (distinct : word.Nodup) (finding : Finding) :
    finding ∈ (readBrackets {} word).findings ↔
      (∃ opener closing closedAt, Partners word opener closing closedAt ∧
        opener.family ≠ closing ∧
        finding =
          { cause := .wrongBracket closing opener.family opener.opened, position := closedAt }) ∨
      (∃ closing closedAt, (.closing closing, closedAt) ∈ word ∧
        (∀ opener, ¬ Partners word opener closing closedAt) ∧
        finding = { cause := .extraBracket closing, position := closedAt }) := by
  rw [mem_findings_readBrackets_iff]
  constructor
  · rintro (none | ⟨before, closing, closedAt, after, split, rejected⟩)
    · cases none
    · have partners := partners_iff_head? distinct split
      cases innermost : (readBrackets {} before).stack.head? with
      | none =>
          rw [innermost] at partners rejected
          cases rejected
          have inText : (.closing closing, closedAt) ∈ word :=
            split ▸ List.mem_append_right _ List.mem_cons_self
          refine .inr ⟨closing, closedAt, inText, fun opener paired => ?_, rfl⟩
          cases (partners opener).1 paired
      | some top =>
          rw [innermost] at partners rejected
          rw [rejection?] at rejected
          split at rejected
          next => cases rejected
          next differ =>
            cases rejected
            exact .inl ⟨top, closing, closedAt, (partners top).2 rfl, differ, rfl⟩
  · rintro (⟨opener, closing, closedAt, paired, differ, rfl⟩ |
      ⟨closing, closedAt, inText, alone, rfl⟩)
    · obtain ⟨before, inner, after, whole, balanced⟩ := id paired
      have split : word =
          (before ++ opener.token :: inner) ++ (.closing closing, closedAt) :: after := by
        rw [whole, List.append_assoc, List.cons_append]
      refine .inr ⟨_, closing, closedAt, after, split, ?_⟩
      rw [(partners_iff_head? distinct split opener).1 paired, rejection?, if_neg differ]
    · obtain ⟨before, after, split⟩ := List.append_of_mem inText
      refine .inr ⟨before, closing, closedAt, after, split, ?_⟩
      cases innermost : (readBrackets {} before).stack.head? with
      | none => rfl
      | some top => exact absurd ((partners_iff_head? distinct split top).2 innermost) (alone top)

end Partners

/-! ## Words without findings -/

theorem rejection?_some_eq_none_iff {top : BracketAt} {closing : Family} {closedAt : Position} :
    rejection? (some top) closing closedAt = none ↔ top.family = closing := by
  simp [rejection?]

theorem Nested.balanced {fits : Family → Family → Prop} {word : List (Bracket × Position)}
    (nested : Nested fits word) : Balanced word := by
  induction nested with
  | nil => exact .nil
  | enclose _ _ _ inner after => exact .enclose trivial inner after

/-- Of the closing bracket around a balanced word, what is reported depends on the two
families alone. -/
theorem findings_readBrackets_enclose {inner : List (Bracket × Position)}
    (balanced : Balanced inner) (state : BracketState) (opening closing : Family)
    (openedAt closedAt : Position) :
    ((readBrackets (state.step (.opening opening) openedAt) inner).step (.closing closing)
        closedAt).findings =
      (rejection? (some ⟨opening, openedAt⟩) closing closedAt).toList ++
        (readBrackets (state.step (.opening opening) openedAt) inner).findings := by
  rw [BracketState.findings_step_closing, stack_readBrackets_balanced _ balanced,
    BracketState.stack_step_opening, List.head?_cons]

/-- A balanced word of which nothing is reported is nested by family. -/
theorem wellNested_of_findings_eq_nil {word : List (Bracket × Position)} (balanced : Balanced word)
    {state : BracketState} (unreported : (readBrackets state word).findings = []) :
    WellNested word := by
  induction balanced generalizing state with
  | nil => exact .nil
  | @enclose opening closing openedAt closedAt inner after _ balanced _ innerIh afterIh =>
      rw [readBrackets_cons, readBrackets_append, readBrackets_cons] at unreported
      have closed := findings_suffix_readBrackets ((readBrackets
        (state.step (.opening opening) openedAt) inner).step (.closing closing) closedAt) after
      rw [unreported, List.suffix_nil, findings_readBrackets_enclose balanced,
        List.append_eq_nil_iff, Option.toList_eq_nil_iff, rejection?_some_eq_none_iff] at closed
      exact .enclose closed.1 (innerIh closed.2) (afterIh unreported)

theorem findings_readBrackets_wellNested {word : List (Bracket × Position)}
    (nested : WellNested word) (state : BracketState) :
    (readBrackets state word).findings = state.findings := by
  induction nested generalizing state with
  | nil => rfl
  | @enclose opening closing openedAt closedAt inner after fit nested _ innerIh afterIh =>
      rw [readBrackets_cons, readBrackets_append, readBrackets_cons, afterIh,
        findings_readBrackets_enclose nested.balanced, rejection?_some_eq_none_iff.2 fit, innerIh]
      rfl

/-- Nothing is reported in the end exactly if the brackets are nested by family. -/
theorem BracketAnalysis.findings_ofState_readBrackets_eq_nil_iff
    (word : List (Bracket × Position)) :
    (ofState (readBrackets {} word)).findings = [] ↔ WellNested word := by
  have parts : (ofState (readBrackets {} word)).findings = [] ↔
      (readBrackets {} word).findings = [] ∧ (readBrackets {} word).stack = [] := by
    simp [ofState]
  rw [parts]
  constructor
  · rintro ⟨unreported, empty⟩
    have layers := layers_readBrackets word
    rw [empty] at layers
    cases layers with
    | ground floor => exact wellNested_of_findings_eq_nil (floor unreported) unreported
  · intro nested
    exact ⟨findings_readBrackets_wellNested nested {},
      stack_readBrackets_balanced {} nested.balanced⟩

/-! ## The brackets of a text -/

theorem lineBrackets_eq_byLine (line column : Nat) (code : List Char) :
    lineBrackets line column code =
      byLine (fun column char => ((Bracket.ofChar? char).map (·, ⟨line, column⟩)).toList) column
        code := by
  induction code generalizing column with
  | nil => rfl
  | cons char rest ih =>
      rw [lineBrackets, byLine, ih]
      cases Bracket.ofChar? char <;> rfl

theorem mem_brackets_iff {first : Nat} {code : List Line} {bracket : Bracket}
    {position : Position} :
    (bracket, position) ∈ brackets first code ↔
      ∃ row index chars char, code[row]? = some chars ∧ chars[index]? = some char ∧
        Bracket.ofChar? char = some bracket ∧ position = ⟨first + row, 1 + index⟩ := by
  simp only [brackets_eq_byLine, lineBrackets_eq_byLine, mem_byLine_iff, Option.mem_toList,
    Option.map_eq_some_iff, Prod.mk.injEq]
  constructor
  · rintro ⟨row, chars, line, index, char, stands, spelt, spells, rfl, rfl⟩
    exact ⟨row, index, chars, char, line, stands, spells, rfl⟩
  · rintro ⟨row, index, chars, char, line, stands, spells, rfl⟩
    exact ⟨row, chars, line, index, char, stands, bracket, spells, rfl, rfl⟩

theorem line_of_mem_lineBrackets {line column : Nat} {code : List Char}
    {found : Bracket × Position} (member : found ∈ lineBrackets line column code) :
    found.2.line = line := by
  rw [lineBrackets_eq_byLine, mem_byLine_iff] at member
  obtain ⟨index, char, _, spelt⟩ := member
  rw [Option.mem_toList, Option.map_eq_some_iff] at spelt
  obtain ⟨bracket, _, rfl⟩ := spelt
  rfl

/-- The brackets of a text come in its order. -/
theorem pairwise_precedes_brackets (first : Nat) (code : List Line) :
    (brackets first code).Pairwise fun found next => found.2.Precedes next.2 := by
  rw [brackets_eq_byLine]
  apply pairwise_byLine
  · intro line chars
    rw [lineBrackets_eq_byLine]
    apply pairwise_byLine
    · intro column char
      cases Bracket.ofChar? char <;> simp
    · intro column char later other behind found here next there
      rw [Option.mem_toList, Option.map_eq_some_iff] at here there
      obtain ⟨bracket, _, rfl⟩ := here
      obtain ⟨bracket, _, rfl⟩ := there
      exact .inr ⟨rfl, behind⟩
  · intro line chars later others below found here next there
    left
    rwa [line_of_mem_lineBrackets here, line_of_mem_lineBrackets there]

/-! ## The account -/

/-- The account that the balance gives of the brackets of a text. -/
structure BracketAnalysis.Accounts (analysis : BracketAnalysis)
    (word : List (Bracket × Position)) : Prop where
  /-- Reported are the partners of different families, at the closing one and with the place of
  the opening one, and all brackets without a partner. -/
  mem_findings_iff : ∀ finding, finding ∈ analysis.findings ↔
    (∃ opener closing closedAt, Partners word opener closing closedAt ∧ opener.family ≠ closing ∧
      finding =
        { cause := .wrongBracket closing opener.family opener.opened, position := closedAt }) ∨
    (∃ closing closedAt, (.closing closing, closedAt) ∈ word ∧
      (∀ opener, ¬ Partners word opener closing closedAt) ∧
      finding = { cause := .extraBracket closing, position := closedAt }) ∨
    ∃ opener : BracketAt, opener.token ∈ word ∧
      (∀ closing closedAt, ¬ Partners word opener closing closedAt) ∧
      finding = { cause := .openBracket opener.family, position := opener.opened }
  /-- Nothing is reported twice. -/
  nodup_findings : analysis.findings.Nodup
  /-- Left open are the opening brackets without a partner, -/
  mem_unclosed_iff : ∀ opener, opener ∈ analysis.unclosed ↔
    opener.token ∈ word ∧ ∀ closing closedAt, ¬ Partners word opener closing closedAt
  /-- in the order of the text, -/
  unclosed_inOrder : analysis.unclosed.Pairwise fun first second =>
    first.opened.Precedes second.opened
  /-- and reported in this order. -/
  filter_findings : analysis.findings.filter (·.kind = .unclosedBracket) =
    analysis.unclosed.map fun opener =>
      { cause := .openBracket opener.family, position := opener.opened }
  /-- Nothing is reported exactly if the brackets are nested by family. -/
  findings_eq_nil_iff : analysis.findings = [] ↔ WellNested word

section Account

variable {word : List (Bracket × Position)}

theorem nodup_of_pairwise_precedes
    (inOrder : word.Pairwise fun found next => found.2.Precedes next.2) :
    (word.map Prod.snd).Nodup := by
  rw [List.Nodup, List.pairwise_map]
  exact inOrder.imp fun precedes => precedes.ne

/-- An open bracket is reported only in the end. -/
theorem kind_ne_of_mem_findings (distinct : word.Nodup) {finding : Finding}
    (found : finding ∈ (readBrackets {} word).findings) : finding.kind ≠ .unclosedBracket := by
  rcases (mem_findings_iff_partners distinct finding).1 found with
    ⟨opener, closing, closedAt, _, _, rfl⟩ | ⟨closing, closedAt, _, _, rfl⟩
  · intro same
    cases same
  · intro same
    cases same

theorem BracketAnalysis.nodup_findings_ofState (places : (word.map Prod.snd).Nodup) :
    (ofState (readBrackets {} word)).findings.Nodup := by
  have distinct : word.Nodup := .of_map _ places
  have rejected : (readBrackets {} word).findings.reverse.Nodup :=
    .of_map _ ((positions_sublist_readBrackets {} word).nodup places)
  have left : ((readBrackets {} word).stack.reverse.map fun opener : BracketAt =>
      ({ cause := .openBracket opener.family, position := opener.opened } : Finding)).Nodup := by
    apply List.Nodup.of_map (·.position)
    have tokens := (tokens_sublist_readBrackets {} word).map Prod.snd
    rw [List.map_map] at tokens ⊢
    exact tokens.nodup places
  rw [ofState, List.nodup_append]
  refine ⟨rejected, left, ?_⟩
  rintro finding early _ late rfl
  obtain ⟨opener, _, rfl⟩ := List.mem_map.1 late
  exact kind_ne_of_mem_findings distinct (List.mem_reverse.1 early) rfl

/-- Reading brackets in the order of the text accounts for them. -/
theorem BracketAnalysis.accounts_ofState
    (inOrder : word.Pairwise fun found next => found.2.Precedes next.2) :
    (ofState (readBrackets {} word)).Accounts word := by
  have places := nodup_of_pairwise_precedes inOrder
  have distinct : word.Nodup := .of_map _ places
  constructor
  case mem_findings_iff =>
    intro finding
    rw [ofState, List.mem_append, List.mem_reverse, mem_findings_iff_partners distinct, or_assoc,
      List.mem_map]
    simp only [List.mem_reverse, mem_stack_readBrackets_iff distinct, and_assoc, eq_comm]
  case nodup_findings => exact nodup_findings_ofState places
  case mem_unclosed_iff =>
    intro opener
    rw [ofState, List.mem_reverse, mem_stack_readBrackets_iff distinct]
  case unclosed_inOrder =>
    have tokens := inOrder.sublist (tokens_sublist_readBrackets {} word)
    rw [List.pairwise_map] at tokens
    exact tokens
  case filter_findings =>
    rw [ofState, List.filter_append, List.filter_eq_nil_iff.2, List.filter_eq_self.2,
      List.nil_append]
    · intro finding found
      obtain ⟨opener, _, rfl⟩ := List.mem_map.1 found
      rfl
    · intro finding found
      simpa using kind_ne_of_mem_findings distinct (List.mem_reverse.1 found)
  case findings_eq_nil_iff => exact findings_ofState_readBrackets_eq_nil_iff word

end Account

/-- The balance of brackets gives a full account of every text: its word holds the brackets of
the code, each with its place and in the order of the text, and what is reported of the word
follows from the partners in it. -/
theorem BracketAnalysis.account_of_text (text : List Char) :
    (∀ bracket position, (bracket, position) ∈ brackets 1 (Scan.ofText text).code ↔
      ∃ row index chars char, (Scan.ofText text).code[row]? = some chars ∧
        chars[index]? = some char ∧ Bracket.ofChar? char = some bracket ∧
        position = ⟨1 + row, 1 + index⟩) ∧
    ((brackets 1 (Scan.ofText text).code).Pairwise fun found next => found.2.Precedes next.2) ∧
    (ofCode (Scan.ofText text).code).Accounts (brackets 1 (Scan.ofText text).code) := by
  have inOrder := pairwise_precedes_brackets 1 (Scan.ofText text).code
  exact ⟨fun _ _ => mem_brackets_iff, inOrder, accounts_ofState inOrder⟩

/-- The round bracket closes the square one, so the square one is left for the round one. -/
example : (BracketAnalysis.ofCode ["f(a[1)]".toList]).findings =
    [{ cause := .wrongBracket .round .square ⟨1, 4⟩, position := ⟨1, 6⟩ },
      { cause := .wrongBracket .square .round ⟨1, 2⟩, position := ⟨1, 7⟩ }] := by
  decide

end Lua

end EditGate

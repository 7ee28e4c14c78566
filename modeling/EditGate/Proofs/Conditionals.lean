import EditGate.Proofs.BlockGrammar
import EditGate.Proofs.Buffer
import EditGate.Proofs.Reading
import Mathlib

/-!
# Conditionals on one line

An `if` opens a block unless it is an expression. Behind `then` and `else` only the branch tells
which of the two it is, but the reading goes by the line: there it takes every `if` for an
expression as soon as one stands earlier on the line. For lines of nested conditionals of both
kinds, this module counts the statements that are taken for expressions. The `end` of each of
them closes another block, and one `end` for each finds nothing to close in the end. Where there
are none, the blocks are balanced.
-/

namespace EditGate.Lua

/-! ## Lines of statements -/

/-- A word that is no keyword of blocks. -/
structure Name where
  chars : List Char
  nonempty : chars ≠ []
  areWord : ∀ char ∈ chars, Text.isWord char
  notKeyword : Keyword.ofWord? chars = none

/-- The name of one letter. -/
def Name.single (char : Char) (isWord : Text.isWord char = true) : Name where
  chars := [char]
  nonempty := List.cons_ne_nil char []
  areWord := by simp [isWord]
  notKeyword := by simp [Keyword.ofWord?]

/-- An expression: a name, or a choice between two expressions. -/
inductive Expression where
  | named (name : Name)
  | choice (condition : Name) (yes no : Expression)

/-- Statements, one or several in a row. -/
inductive Statements where
  | assign (target : Name) (value : Expression)
  | call (callee : Name) (argument : Expression)
  | when (condition : Name) (body : Statements)
  | branch (condition : Name) (yes no : Statements)
  | row (first rest : Statements)

namespace Expression

/-- The text of an expression. -/
def render : Expression → List Char
  | named name => name.chars
  | choice condition yes no =>
      "if ".toList ++ (condition.chars ++ (" then ".toList ++ (yes.render ++
        (" else ".toList ++ no.render))))

/-- Whether an expression has an `if`. -/
def hasIf : Expression → Bool
  | named _ => false
  | choice _ _ _ => true

end Expression

namespace Statements

/-- The text of statements. -/
def render : Statements → List Char
  | assign target value => "local ".toList ++ (target.chars ++ (" = ".toList ++ value.render))
  | call callee argument => callee.chars ++ ("(".toList ++ (argument.render ++ ")".toList))
  | when condition body =>
      "if ".toList ++ (condition.chars ++ (" then ".toList ++ (body.render ++ " end".toList)))
  | branch condition yes no =>
      "if ".toList ++ (condition.chars ++ (" then ".toList ++ (yes.render ++
        (" else ".toList ++ (no.render ++ " end".toList)))))
  | row first rest => first.render ++ ("; ".toList ++ rest.render)

theorem render_assign (target : Name) (value : Expression) :
    (assign target value).render =
      "local ".toList ++ (target.chars ++ (" = ".toList ++ value.render)) :=
  rfl

theorem render_call (callee : Name) (argument : Expression) :
    (call callee argument).render =
      callee.chars ++ ("(".toList ++ (argument.render ++ ")".toList)) :=
  rfl

theorem render_when (condition : Name) (body : Statements) :
    (when condition body).render =
      "if ".toList ++ (condition.chars ++ (" then ".toList ++ (body.render ++ " end".toList))) :=
  rfl

theorem render_branch (condition : Name) (yes no : Statements) :
    (branch condition yes no).render =
      "if ".toList ++ (condition.chars ++ (" then ".toList ++ (yes.render ++
        (" else ".toList ++ (no.render ++ " end".toList))))) :=
  rfl

theorem render_row (first rest : Statements) :
    (row first rest).render = first.render ++ ("; ".toList ++ rest.render) :=
  rfl

/-- The number of statements that start with `if`. -/
def conditionals : Statements → Nat
  | assign _ _ | call _ _ => 0
  | when _ body => body.conditionals + 1
  | branch _ yes no => yes.conditionals + no.conditionals + 1
  | row first rest => first.conditionals + rest.conditionals

/-- Whether an expression in the statements has an `if`. -/
def hasExpressionIf : Statements → Bool
  | assign _ value => value.hasIf
  | call _ argument => argument.hasIf
  | when _ body => body.hasExpressionIf
  | branch _ yes no => yes.hasExpressionIf || no.hasExpressionIf
  | row first rest => first.hasExpressionIf || rest.hasExpressionIf

/-- The number of conditional statements right behind a `then` or `else` with an expression that
has an `if` earlier on the line. `seen` says whether there is such an expression before these
statements, and `branching` whether a `then` or `else` stands right before them. -/
def misread (seen branching : Bool) : Statements → Nat
  | assign _ _ | call _ _ => 0
  | when _ body => (seen && branching).toNat + body.misread seen true
  | branch _ yes no =>
      (seen && branching).toNat + yes.misread seen true +
        no.misread (seen || yes.hasExpressionIf) true
  | row first rest =>
      first.misread seen branching + rest.misread (seen || first.hasExpressionIf) false

/-- The keywords that are read of the statements. -/
def keywordsRead (seen branching : Bool) : Statements → List Keyword
  | assign _ _ | call _ _ => []
  | when _ body =>
      (if seen && branching then [] else [.opener .conditional]) ++
        (body.keywordsRead seen true ++ [.blockEnd])
  | branch _ yes no =>
      (if seen && branching then [] else [.opener .conditional]) ++
        (yes.keywordsRead seen true ++
          (no.keywordsRead (seen || yes.hasExpressionIf) true ++ [.blockEnd]))
  | row first rest =>
      first.keywordsRead seen branching ++ rest.keywordsRead (seen || first.hasExpressionIf) false

end Statements

/-! ## What stands before an `if` -/

/-- What stands right before a place, as far as it tells what an `if` there is taken for. -/
inductive Lead where
  | statement
  | expression
  | branch

/-- Whether an `if` is taken for an expression, by whether there was one on the line. -/
def Lead.isExpression (seen : Bool) : Lead → Bool
  | statement => false
  | expression => true
  | branch => seen

/-- The characters before a place, the nearest first, are such a lead. -/
structure Lead.Stands (lead : Lead) (before : List Char) : Prop where
  mayPrecede : before.head?.all mayPrecede
  isExpressionIf : ∀ expressions,
    isExpressionIf before expressions = lead.isExpression (0 < expressions)

namespace Lead

theorem stands_statement {before : List Char} (apart : before.head?.all Lua.mayPrecede)
    (unexpected : expectsExpression before = false) (unbranched : startsBranch before = false) :
    statement.Stands before := by
  refine ⟨apart, fun expressions => ?_⟩
  rw [Lua.isExpressionIf, unexpected, unbranched, Bool.and_false]
  rfl

theorem stands_expression {before : List Char} (apart : before.head?.all Lua.mayPrecede)
    (expected : expectsExpression before = true) : expression.Stands before := by
  refine ⟨apart, fun expressions => ?_⟩
  rw [Lua.isExpressionIf, expected]
  rfl

theorem stands_branch {before : List Char} (apart : before.head?.all Lua.mayPrecede)
    (unexpected : expectsExpression before = false) (branched : startsBranch before = true) :
    branch.Stands before := by
  refine ⟨apart, fun expressions => ?_⟩
  rw [Lua.isExpressionIf, unexpected, branched, Bool.and_true]
  rfl

/-- At the start of a line and behind a semicolon stands a statement. -/
theorem statement_start : statement.Stands [] :=
  stands_statement rfl rfl rfl

theorem statement_semicolon (before : List Char) :
    statement.Stands ("; ".toList.reverse ++ before) :=
  stands_statement rfl rfl rfl

theorem expression_equals (before : List Char) :
    expression.Stands (" = ".toList.reverse ++ before) :=
  stands_expression rfl rfl

theorem expression_bracket (before : List Char) :
    expression.Stands ("(".toList.reverse ++ before) :=
  stands_expression rfl rfl

theorem branch_then (before : List Char) : branch.Stands (" then ".toList.reverse ++ before) :=
  stands_branch rfl rfl rfl

theorem branch_else (before : List Char) : branch.Stands (" else ".toList.reverse ++ before) :=
  stands_branch rfl rfl rfl

/-- What stands before statements, by whether a `then` or `else` does. -/
def ofBranching : Bool → Lead
  | true => branch
  | false => statement

end Lead

/-! ## The keywords of a rendered line -/

theorem keywordPlaces_mark {char : Char} (notWord : Text.isWord char = false)
    (before after : List Char) :
    keywordPlaces before (char :: after) = keywordPlaces (char :: before) after := by
  have never := Keyword.standsAt_of_not_isWord notWord before after
  rw [keywordPlaces, List.find?_eq_none.2 (by simp [never])]
  rfl

/-- Characters that are in no word are passed. -/
theorem keywordPlaces_marks {marks : List Char} (areMarks : marks.all (!Text.isWord ·))
    (before after : List Char) :
    keywordPlaces before (marks ++ after) = keywordPlaces (marks.reverse ++ before) after := by
  induction marks generalizing before with
  | nil => rfl
  | cons char rest ih =>
      rw [List.all_cons, Bool.and_eq_true, Bool.not_eq_true'] at areMarks
      rw [List.cons_append, keywordPlaces_mark areMarks.1, ih areMarks.2, List.reverse_cons,
        List.append_assoc]
      rfl

/-- The characters at which no word goes on. -/
abbrev EndsWord (after : List Char) : Prop :=
  after.head?.all (!Text.isWord ·) = true

section Places

variable {lead : Lead} {before after : List Char}

theorem Lead.Stands.endsWord (stands : lead.Stands before) : EndsWord before := by
  have apart := stands.mayPrecede
  cases before with
  | nil => rfl
  | cons char rest =>
      simp only [EndsWord, List.head?_cons, Option.all_some, Lua.mayPrecede,
        Bool.and_eq_true] at apart ⊢
      exact apart.1.1

theorem Lead.Stands.endsQualifier_eq (stands : lead.Stands before) :
    endsQualifier before = false := by
  have apart := stands.mayPrecede
  cases before with
  | nil => rfl
  | cons char rest =>
      simp only [List.head?_cons, Option.all_some, Lua.mayPrecede, Bool.and_eq_true,
        bne_iff_ne] at apart
      simp [endsQualifier, apart]

theorem Name.keywordPlaces_chars (name : Name) (starts : EndsWord before) (ends : EndsWord after) :
    keywordPlaces before (name.chars ++ after) =
      keywordPlaces (name.chars.reverse ++ before) after := by
  rw [keywordPlaces_run name.nonempty starts name.areWord ends, name.notKeyword, ite_self]
  rfl

theorem Keyword.ofWord?_letters (keyword : Keyword) : ofWord? keyword.letters = some keyword := by
  cases keyword with
  | opener kind => cases kind <;> rfl
  | blockEnd => rfl
  | loopUntil => rfl

theorem Keyword.keywordPlaces_letters (keyword : Keyword) (starts : EndsWord before)
    (unqualified : endsQualifier before = false) (ends : EndsWord after) :
    keywordPlaces before (keyword.letters ++ after) =
      (keyword, before) :: keywordPlaces (keyword.letters.reverse ++ before) after := by
  rw [keywordPlaces_run keyword.letters_ne_nil starts keyword.isWord_letters ends, unqualified,
    keyword.ofWord?_letters]
  rfl

/-- The words in lines of statements that are no keywords of blocks. -/
def Name.thenWord : Name :=
  ⟨"then".toList, by decide, List.all_eq_true.1 rfl, by decide⟩

@[inherit_doc Name.thenWord]
def Name.elseWord : Name :=
  ⟨"else".toList, by decide, List.all_eq_true.1 rfl, by decide⟩

@[inherit_doc Name.thenWord]
def Name.localWord : Name :=
  ⟨"local".toList, by decide, List.all_eq_true.1 rfl, by decide⟩

theorem Name.keywordPlaces_spaced (name : Name) (before after : List Char) :
    keywordPlaces before (' ' :: (name.chars ++ ' ' :: after)) =
      keywordPlaces (' ' :: (name.chars.reverse ++ ' ' :: before)) after := by
  rw [keywordPlaces_mark (by decide), name.keywordPlaces_chars rfl rfl,
    keywordPlaces_mark (by decide)]

theorem keywordPlaces_then (before after : List Char) :
    keywordPlaces before (" then ".toList ++ after) =
      keywordPlaces (" then ".toList.reverse ++ before) after :=
  Name.thenWord.keywordPlaces_spaced before after

theorem keywordPlaces_else (before after : List Char) :
    keywordPlaces before (" else ".toList ++ after) =
      keywordPlaces (" else ".toList.reverse ++ before) after :=
  Name.elseWord.keywordPlaces_spaced before after

theorem keywordPlaces_local (starts : EndsWord before) (after : List Char) :
    keywordPlaces before ("local ".toList ++ after) =
      keywordPlaces ("local ".toList.reverse ++ before) after :=
  (Name.localWord.keywordPlaces_chars starts rfl).trans (keywordPlaces_mark (by decide) _ _)

/-- The header of a conditional, by what stands before it. -/
theorem statementKeywords_header (stands : lead.Stands before) (condition : Name)
    (expressions : Nat) :
    statementKeywords expressions (keywordPlaces before
        ("if ".toList ++ (condition.chars ++ (" then ".toList ++ after)))) =
      if lead.isExpression (0 < expressions) then
        statementKeywords (expressions + 1) (keywordPlaces (" then ".toList.reverse ++
          (condition.chars.reverse ++ ("if ".toList.reverse ++ before))) after)
      else
        .opener .conditional :: statementKeywords expressions (keywordPlaces
          (" then ".toList.reverse ++ (condition.chars.reverse ++ ("if ".toList.reverse ++ before)))
          after) := by
  have found : keywordPlaces before ((Keyword.opener .conditional).letters ++
      ' ' :: (condition.chars ++ (" then ".toList ++ after))) = _ :=
    Keyword.keywordPlaces_letters _ stands.endsWord stands.endsQualifier_eq rfl
  rw [keywordPlaces_mark (by decide), condition.keywordPlaces_chars rfl rfl,
    keywordPlaces_then] at found
  have spelt : "if ".toList ++ (condition.chars ++ (" then ".toList ++ after)) =
      (Keyword.opener .conditional).letters ++
        ' ' :: (condition.chars ++ (" then ".toList ++ after)) := rfl
  rw [spelt, found, statementKeywords, stands.isExpressionIf]
  simp only [true_and]
  rfl

theorem statementKeywords_end (ends : EndsWord after) (before : List Char) (expressions : Nat) :
    statementKeywords expressions (keywordPlaces before (" end".toList ++ after)) =
      .blockEnd :: statementKeywords expressions
        (keywordPlaces (" end".toList.reverse ++ before) after) := by
  have found : keywordPlaces (' ' :: before) (Keyword.blockEnd.letters ++ after) = _ :=
    Keyword.keywordPlaces_letters _ rfl rfl ends
  rw [← keywordPlaces_mark (by decide)] at found
  have spelt : " end".toList ++ after = ' ' :: (Keyword.blockEnd.letters ++ after) := rfl
  rw [spelt, found, statementKeywords]
  rfl

end Places

/-- In an expression every `if` is taken for one. -/
theorem Expression.statementKeywords_render (tree : Expression) {lead : Lead} {before : List Char}
    (stands : lead.Stands before) (expressions : Nat)
    (expected : lead.isExpression (0 < expressions) = true) (after : List Char)
    (ends : EndsWord after) :
    ∃ later, decide (0 < later) = (decide (0 < expressions) || tree.hasIf) ∧
      statementKeywords expressions (keywordPlaces before (tree.render ++ after)) =
        statementKeywords later (keywordPlaces (tree.render.reverse ++ before) after) := by
  induction tree generalizing lead before after expressions with
  | named name =>
      refine ⟨expressions, by simp [hasIf], ?_⟩
      rw [render, name.keywordPlaces_chars stands.endsWord ends]
  | choice condition yes no yesIh noIh =>
      obtain ⟨middle, seen, yesRead⟩ := yesIh (Lead.branch_then _) (expressions + 1) rfl
        (" else ".toList ++ (no.render ++ after)) rfl
      obtain ⟨later, last, noRead⟩ := noIh (Lead.branch_else _) middle
        (by simp [Lead.isExpression, seen]) after ends
      refine ⟨later, by simp [last, seen, hasIf], ?_⟩
      simp only [render, List.append_assoc, List.reverse_append]
      rw [statementKeywords_header stands, expected, if_pos rfl, yesRead, keywordPlaces_else,
        noRead]

theorem Lead.isExpression_ofBranching (seen branching : Bool) :
    (ofBranching branching).isExpression seen = (seen && branching) := by
  cases seen <;> cases branching <;> rfl

namespace Statements

/-- The header of a conditional statement opens a block, unless it is taken for an expression. -/
theorem statementKeywords_conditional {branching : Bool} {before : List Char}
    (stands : (Lead.ofBranching branching).Stands before) (condition : Name) (expressions : Nat)
    (after : List Char) :
    ∃ counted, decide (0 < counted) = decide (0 < expressions) ∧
      statementKeywords expressions (keywordPlaces before
          ("if ".toList ++ (condition.chars ++ (" then ".toList ++ after)))) =
        (if decide (0 < expressions) && branching then [] else [.opener .conditional]) ++
          statementKeywords counted (keywordPlaces (" then ".toList.reverse ++
            (condition.chars.reverse ++ ("if ".toList.reverse ++ before))) after) := by
  rw [statementKeywords_header stands, Lead.isExpression_ofBranching]
  cases taken : decide (0 < expressions) && branching with
  | true =>
      rw [Bool.and_eq_true] at taken
      exact ⟨expressions + 1, by simp [taken.1], rfl⟩
  | false => exact ⟨expressions, rfl, rfl⟩

/-- Of statements the keywords are read that are theirs, but for each `if` that is taken for an
expression. -/
theorem statementKeywords_render (tree : Statements) (branching : Bool) {before : List Char}
    (stands : (Lead.ofBranching branching).Stands before) (expressions : Nat) (after : List Char)
    (ends : EndsWord after) :
    ∃ later, decide (0 < later) = (decide (0 < expressions) || tree.hasExpressionIf) ∧
      statementKeywords expressions (keywordPlaces before (tree.render ++ after)) =
        tree.keywordsRead (0 < expressions) branching ++
          statementKeywords later (keywordPlaces (tree.render.reverse ++ before) after) := by
  induction tree generalizing branching before after expressions with
  | assign target value =>
      obtain ⟨later, seen, read⟩ := value.statementKeywords_render (Lead.expression_equals
        (target.chars.reverse ++ ("local ".toList.reverse ++ before))) expressions rfl after ends
      refine ⟨later, seen, ?_⟩
      simp only [render_assign, List.append_assoc, List.reverse_append]
      rw [keywordPlaces_local stands.endsWord, target.keywordPlaces_chars rfl rfl,
        keywordPlaces_marks rfl, read]
      rfl
  | call callee argument =>
      obtain ⟨later, seen, read⟩ := argument.statementKeywords_render (Lead.expression_bracket
        (callee.chars.reverse ++ before)) expressions rfl (")".toList ++ after) rfl
      refine ⟨later, seen, ?_⟩
      simp only [render_call, List.append_assoc, List.reverse_append]
      rw [callee.keywordPlaces_chars stands.endsWord rfl, keywordPlaces_marks rfl, read,
        keywordPlaces_marks rfl]
      rfl
  | when condition body ih =>
      obtain ⟨counted, same, opened⟩ := statementKeywords_conditional stands condition expressions
        (body.render ++ (" end".toList ++ after))
      obtain ⟨later, seen, read⟩ := ih true (Lead.branch_then _) counted
        (" end".toList ++ after) rfl
      refine ⟨later, by rw [seen, same]; rfl, ?_⟩
      simp only [render_when, List.append_assoc, List.reverse_append]
      rw [opened, read, statementKeywords_end ends, same]
      simp only [keywordsRead, List.append_assoc]
      rfl
  | branch condition yes no yesIh noIh =>
      obtain ⟨counted, same, opened⟩ := statementKeywords_conditional stands condition expressions
        (yes.render ++ (" else ".toList ++ (no.render ++ (" end".toList ++ after))))
      obtain ⟨middle, seen, yesRead⟩ := yesIh true (Lead.branch_then _) counted
        (" else ".toList ++ (no.render ++ (" end".toList ++ after))) rfl
      obtain ⟨later, last, noRead⟩ := noIh true (Lead.branch_else _) middle
        (" end".toList ++ after) rfl
      refine ⟨later, by rw [last, seen, same, hasExpressionIf, Bool.or_assoc], ?_⟩
      simp only [render_branch, List.append_assoc, List.reverse_append]
      rw [opened, yesRead, keywordPlaces_else, noRead, statementKeywords_end ends, seen, same]
      simp only [keywordsRead, List.append_assoc]
      rfl
  | row first rest firstIh restIh =>
      obtain ⟨middle, seen, firstRead⟩ := firstIh branching stands expressions
        ("; ".toList ++ (rest.render ++ after)) rfl
      obtain ⟨later, last, restRead⟩ := restIh false
        (Lead.statement_semicolon (first.render.reverse ++ before)) middle after ends
      refine ⟨later, by rw [last, seen, hasExpressionIf, Bool.or_assoc], ?_⟩
      simp only [render_row, List.append_assoc, List.reverse_append]
      rw [firstRead, keywordPlaces_marks rfl, restRead, seen, keywordsRead, List.append_assoc]

end Statements

/-! ## What the reading leaves -/

/-- What reading conditionals does to a state: each one has an `end`, and each one that opened no
block takes another one, or is reported if there is none. -/
structure BlockState.Tallies (state after : BlockState) (conditionals misread : Nat) : Prop where
  depth : after.stack.length = state.stack.length - misread
  reported : after.findings.length = state.findings.length + (misread - state.stack.length)
  expected : after.expected + misread = state.expected + conditionals
  found : after.found = state.found + conditionals
  causes : ∀ finding ∈ after.findings, finding ∈ state.findings ∨ finding.cause = .extraEnd

namespace BlockState

theorem tallies_refl (state : BlockState) : state.Tallies state 0 0 :=
  ⟨rfl, by simp, rfl, rfl, fun _ => .inl⟩

namespace Tallies

variable {state middle after : BlockState} {conditionals misread others more : Nat}

theorem trans (first : state.Tallies middle conditionals misread)
    (second : middle.Tallies after others more) :
    state.Tallies after (conditionals + others) (misread + more) where
  depth := by
    rw [second.depth, first.depth, Nat.sub_sub]
  reported := by
    rw [second.reported, first.reported, first.depth]
    omega
  expected := by
    have := first.expected
    have := second.expected
    omega
  found := by
    rw [second.found, first.found, Nat.add_assoc]
  causes finding reported := by
    rcases second.causes finding reported with early | extra
    · exact first.causes finding early
    · exact .inr extra

/-- A block that is opened first makes up for one that is not. -/
theorem of_openBlock {position : Position}
    (tallies : (state.openBlock .conditional position).Tallies after conditionals (misread + 1)) :
    state.Tallies after conditionals misread where
  depth := by
    rw [tallies.depth]
    exact Nat.succ_sub_succ _ _
  reported := by
    rw [tallies.reported]
    exact congrArg _ (Nat.succ_sub_succ _ _)
  expected := by
    have opened : (state.openBlock .conditional position).expected = state.expected + 1 := rfl
    have := tallies.expected
    omega
  found := tallies.found
  causes := tallies.causes

end Tallies

/-- An `end` takes a block, or is reported. -/
theorem tallies_closeEnd (state : BlockState) (position : Position) :
    state.Tallies (state.closeEnd position) 1 1 := by
  obtain ⟨stack, expected, found, extraLines, findings⟩ := state
  cases stack with
  | nil =>
      refine ⟨rfl, rfl, rfl, rfl, fun finding member => ?_⟩
      rcases List.mem_cons.1 member with rfl | early
      · exact .inr rfl
      · exact .inl early
  | cons top rest =>
      refine ⟨rfl, ?_, rfl, rfl, fun finding => .inl⟩
      rw [List.length_cons, Nat.sub_eq_zero_of_le (Nat.le_add_left 1 _)]
      rfl

/-- A conditional whose parts are read, and whose `if` opens a block unless it is taken for an
expression. -/
theorem tallies_conditional {taken : Bool} {inner : List Keyword} {conditionals misread : Nat}
    (tallies : ∀ (state : BlockState) (part : List (Keyword × Position)),
      part.map Prod.fst = inner → state.Tallies (readKeywords state part) conditionals misread)
    {sequence : List (Keyword × Position)}
    (spelt : sequence.map Prod.fst =
      (if taken then [] else [.opener .conditional]) ++ (inner ++ [.blockEnd]))
    (state : BlockState) :
    state.Tallies (readKeywords state sequence) (conditionals + 1) (taken.toNat + misread) := by
  rw [List.map_eq_append_iff] at spelt
  obtain ⟨header, tail, rfl, opens, spelt⟩ := spelt
  rw [List.map_eq_append_iff] at spelt
  obtain ⟨part, closer, rfl, spells, closes⟩ := spelt
  rw [List.map_eq_singleton_iff] at closes
  obtain ⟨⟨keyword, position⟩, rfl, rfl⟩ := closes
  have whole (start : BlockState) :
      start.Tallies (readKeywords start (part ++ [(.blockEnd, position)])) (conditionals + 1)
        (misread + 1) := by
    rw [readKeywords_append]
    exact (tallies start part spells).trans (tallies_closeEnd _ position)
  cases taken with
  | true =>
      obtain rfl := List.map_eq_nil_iff.1 opens
      rw [Bool.toNat_true, Nat.add_comm 1]
      exact whole state
  | false =>
      obtain ⟨⟨opener, opened⟩, rfl, rfl⟩ := List.map_eq_singleton_iff.1 opens
      rw [Bool.toNat_false, Nat.zero_add]
      exact (whole (state.openBlock .conditional opened)).of_openBlock

end BlockState

/-- Reading the keywords of statements. -/
theorem Statements.tallies_readKeywords (tree : Statements) {seen branching : Bool}
    {sequence : List (Keyword × Position)}
    (spelt : sequence.map Prod.fst = tree.keywordsRead seen branching) (state : BlockState) :
    state.Tallies (readKeywords state sequence) tree.conditionals
      (tree.misread seen branching) := by
  induction tree generalizing seen branching sequence state with
  | assign target value | call callee argument =>
      obtain rfl := List.map_eq_nil_iff.1 spelt
      exact state.tallies_refl
  | when condition body ih =>
      exact BlockState.tallies_conditional (fun start part spells => ih spells start) spelt state
  | branch condition yes no yesIh noIh =>
      rw [keywordsRead, ← List.append_assoc (yes.keywordsRead _ _)] at spelt
      rw [misread, conditionals, Nat.add_assoc (seen && branching).toNat]
      refine BlockState.tallies_conditional (fun start part spells => ?_) spelt state
      obtain ⟨first, second, rfl, firstSpells, secondSpells⟩ := List.map_eq_append_iff.1 spells
      rw [readKeywords_append]
      exact (yesIh firstSpells start).trans (noIh secondSpells _)
  | row first rest firstIh restIh =>
      obtain ⟨early, late, rfl, firstSpells, restSpells⟩ := List.map_eq_append_iff.1 spelt
      rw [readKeywords_append]
      exact (firstIh firstSpells state).trans (restIh restSpells _)

/-! ## The code of a rendered line -/

/-- Whether a character neither ends a line nor opens anything that is not code. -/
def isInert (char : Char) : Bool :=
  decide (char ∉ ['\n', '-', '[', '"', '\''])

theorem isInert_of_isWord {char : Char} (isWord : Text.isWord char = true) :
    isInert char = true := by
  have marks : ['\n', '-', '[', '"', '\''].all (!Text.isWord ·) := rfl
  rw [isInert, decide_eq_true_eq]
  intro member
  have notWord := List.all_eq_true.1 marks char member
  rw [isWord] at notWord
  cases notWord

theorem Name.all_isInert (name : Name) : name.chars.all isInert = true :=
  List.all_eq_true.2 fun char member => isInert_of_isWord (name.areWord char member)

theorem Expression.all_isInert_render (tree : Expression) : tree.render.all isInert = true := by
  induction tree with
  | named name => exact name.all_isInert
  | choice condition yes no yesIh noIh =>
      simp only [render, List.all_append, Bool.and_eq_true]
      exact ⟨rfl, condition.all_isInert, rfl, yesIh, rfl, noIh⟩

theorem Statements.all_isInert_render (tree : Statements) : tree.render.all isInert = true := by
  induction tree with
  | assign target value =>
      simp only [render_assign, List.all_append, Bool.and_eq_true]
      exact ⟨rfl, target.all_isInert, rfl, value.all_isInert_render⟩
  | call callee argument =>
      simp only [render_call, List.all_append, Bool.and_eq_true]
      exact ⟨callee.all_isInert, rfl, argument.all_isInert_render, rfl⟩
  | when condition body ih =>
      simp only [render_when, List.all_append, Bool.and_eq_true]
      exact ⟨rfl, condition.all_isInert, rfl, ih, rfl⟩
  | branch condition yes no yesIh noIh =>
      simp only [render_branch, List.all_append, Bool.and_eq_true]
      exact ⟨rfl, condition.all_isInert, rfl, yesIh, rfl, noIh, rfl⟩
  | row first rest firstIh restIh =>
      simp only [render_row, List.all_append, Bool.and_eq_true]
      exact ⟨firstIh, rfl, restIh⟩

theorem opening?_isInert {char : Char} (inert : isInert char = true) (rest : List Char) :
    opening? (char :: rest) = none := by
  simp only [isInert, decide_eq_true_eq, List.mem_cons, List.not_mem_nil, or_false, not_or] at inert
  obtain ⟨_, notHyphen, notBracket, notQuote, notTick⟩ := inert
  rw [opening?]
  · exact if_neg (not_or.2 ⟨notQuote, notTick⟩)
  · exact fun tail equal => absurd equal notHyphen
  · exact notBracket

theorem code_scanCode_inert {chars : List Char} (inert : chars.all isInert = true)
    (line column : Nat) : (scanCode line column chars).code = chars := by
  induction chars generalizing column with
  | nil => simp [scanCode_nil, LineScan.code]
  | cons char rest ih =>
      rw [List.all_cons, Bool.and_eq_true] at inert
      rw [scanCode_code (opening?_isInert inert.1 rest), LineScan.code_prependCode, ih inert.2]

/-- A line without marks is code as a whole. -/
theorem Scan.code_ofText_inert {text : List Char} (inert : text.all isInert = true) :
    (ofText text).code = [text] := by
  have unbroken : ∀ line ∈ [text], '\n' ∉ line := by
    intro line member broken
    rw [List.mem_singleton.1 member] at broken
    exact absurd (List.all_eq_true.1 inert '\n' broken) (by decide)
  have oneLine : Line.split text = [text] := by
    rw [← Line.split_intercalate unbroken (List.cons_ne_nil _ _), List.intercalate_singleton]
  rw [code, ofText, oneLine]
  exact congrArg (fun line => [line]) (code_scanCode_inert inert 1 1)

/-! ## The account -/

namespace Statements

theorem map_fst_keywords_render (tree : Statements) :
    (keywords 1 (Scan.ofText tree.render).code).map Prod.fst = tree.keywordsRead false false := by
  obtain ⟨later, _, read⟩ := tree.statementKeywords_render false Lead.statement_start 0 [] rfl
  rw [Scan.code_ofText_inert tree.all_isInert_render, map_keyword_keywords, codeKeywords,
    List.flatMap_singleton]
  rw [List.append_nil] at read
  rw [read, keywordPlaces, statementKeywords, List.append_nil]
  rfl

/-- On a line of nested conditionals, every `end` of a statement is found, but no block is
expected for a conditional statement behind `then` or `else` if an expression with an `if` stands
before it on the line. No block is left open, and for each such statement an `end` is reported
that closes nothing. So the blocks are balanced, with one for each conditional statement, exactly
if there is no such statement. -/
theorem blocks_account (tree : Statements) :
    let blocks := BlockAnalysis.ofCode (Scan.ofText tree.render).code
    blocks.found = tree.conditionals ∧
    blocks.expected + tree.misread false false = tree.conditionals ∧
    blocks.unclosed = [] ∧
    blocks.findings.length = tree.misread false false ∧
    (∀ finding ∈ blocks.findings, finding.cause = .extraEnd) ∧
    (blocks.findings = [] ∧ blocks.expected = tree.conditionals ∧
        blocks.found = tree.conditionals ↔ tree.misread false false = 0) := by
  intro blocks
  have tallies := tree.tallies_readKeywords tree.map_fst_keywords_render {}
  have found : blocks.found = tree.conditionals := tallies.found.trans (Nat.zero_add _)
  have expected : blocks.expected + tree.misread false false = tree.conditionals :=
    tallies.expected.trans (Nat.zero_add _)
  have closed : (readKeywords {} (keywords 1 (Scan.ofText tree.render).code)).stack = [] :=
    List.length_eq_zero_iff.1 (tallies.depth.trans (Nat.zero_sub _))
  have findings : blocks.findings =
      (readKeywords {} (keywords 1 (Scan.ofText tree.render).code)).findings.reverse := by
    have parts : blocks = .ofState (readKeywords {} (keywords 1 (Scan.ofText tree.render).code)) :=
      rfl
    rw [parts, BlockAnalysis.ofState, closed]
    exact List.append_nil _
  have reported : blocks.findings.length = tree.misread false false := by
    rw [findings, List.length_reverse, tallies.reported]
    exact Nat.zero_add _
  refine ⟨found, expected, ?_, reported, ?_, ?_⟩
  · exact congrArg List.reverse closed
  · intro finding member
    rw [findings, List.mem_reverse] at member
    exact (tallies.causes finding member).resolve_left List.not_mem_nil
  · rw [← List.length_eq_zero_iff, reported]
    constructor
    · exact fun clean => clean.1
    · intro none
      exact ⟨none, by rwa [none] at expected, found⟩

/-- An expression with an `if`, and behind it two nested statements with one. -/
def nestedBehindExpression : Statements :=
  .row (.assign (.single 'x' rfl) (.choice (.single 'c' rfl) (.named (.single 'a' rfl))
      (.named (.single 'a' rfl))))
    (.when (.single 'c' rfl) (.when (.single 'c' rfl)
      (.call (.single 'f' rfl) (.named (.single 'a' rfl)))))

/-- The inner statement behind `then` opens no block, so the last `end` closes nothing. -/
theorem unbalanced_behind_expression :
    nestedBehindExpression.render =
        "local x = if c then a else a; if c then if c then f(a) end end".toList ∧
      nestedBehindExpression.conditionals = 2 ∧
      (BlockAnalysis.ofCode (Scan.ofText nestedBehindExpression.render).code).expected = 1 ∧
      (BlockAnalysis.ofCode (Scan.ofText nestedBehindExpression.render).code).found = 2 ∧
      (BlockAnalysis.ofCode (Scan.ofText nestedBehindExpression.render).code).findings =
        [{ cause := .extraEnd, position := ⟨1, 60⟩ }] := by
  decide +kernel

end Statements

end EditGate.Lua

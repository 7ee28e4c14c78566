import EditGate.Proofs.BlockGrammar
import EditGate.Proofs.BracketMatching
import EditGate.Proofs.Cursors
import EditGate.Proofs.Masking
import Mathlib

/-!
# Places of findings

Every finding points at a character of the text, and what it is about stands there: the quote of a
string that is cut off, the opener of a long bracket, the keyword of a block, a bracket, a name.

Three of the five analyses look at the code alone. What they find has no space in it, so it was not
made by blotting out and stands in the text too. Only the name of a deprecated function can have a
space in it; such a call is at a character of the text, but the name need not be there.
-/

namespace EditGate

/-- Whether characters stand at a place of lines that are counted from `first`. -/
def Position.Shows (first : Nat) (lines : List Line) (position : Position) (mark : List Char) :
    Prop :=
  ∃ index chars, lines[index]? = some chars ∧ position.line = first + index ∧
    chars.Stands 1 position.column mark

namespace Position.Shows

variable {first : Nat} {lines : List Line} {position : Position} {mark : List Char}

theorem head {chars : Line} (onLine : position.line = first)
    (stands : chars.Stands 1 position.column mark) : position.Shows first (chars :: lines) mark :=
  ⟨0, chars, rfl, onLine, stands⟩

theorem cons (chars : Line) (shows : position.Shows (first + 1) lines mark) :
    position.Shows first (chars :: lines) mark := by
  obtain ⟨index, line, found, onLine, stands⟩ := shows
  exact ⟨index + 1, line, found, by omega, stands⟩

end Position.Shows

/-- The characters that a cause is about, as far as they have to be in the text. -/
def Cause.mark : Cause → List Char
  | openString quote => [quote]
  | openLongBracket level isComment => Lua.longOpener level isComment
  | openBlock kind => kind.keyword.toList
  | extraEnd => "end".toList
  | wrongUntil _ => "until".toList
  | wrongBracket closing _ _ => [closing.closing]
  | openBracket opening => [opening.opening]
  | extraBracket closing => [closing.closing]
  | deprecatedCall name _ => if ' ' ∈ name.toList then [] else name.toList
  | globalAssignment name => name.toList
  | shadowedBuiltin name => name.toList

/-- Whether a finding is where code has what it is about. -/
structure Finding.InCode (first : Nat) (code : List Line) (finding : Finding) : Prop where
  shows : finding.position.Shows first code finding.cause.mark
  noSpace : ' ' ∉ finding.cause.mark

theorem Finding.InCode.cons {first : Nat} {code : List Line} {finding : Finding} (chars : Line)
    (inCode : finding.InCode (first + 1) code) : finding.InCode first (chars :: code) :=
  ⟨inCode.shows.cons chars, inCode.noSpace⟩

theorem Finding.InCode.head {first : Nat} {chars : Line} {code : List Line} {finding : Finding}
    {mark : List Char} (about : finding.cause.mark = mark) (noSpace : ' ' ∉ mark)
    (onLine : finding.position.line = first)
    (stands : chars.Stands 1 finding.position.column mark) :
    finding.InCode first (chars :: code) := by
  subst about
  exact ⟨.head onLine stands, noSpace⟩

/-! ## Advice -/

theorem Lua.NameAt.On.space_notMem {line : Line} {found : Lua.NameAt} (on : found.On line) :
    ' ' ∉ found.name := by
  intro space
  exact absurd (on.isWord ' ' space) (by decide)

namespace Lint

open Lua

/-- A call of a deprecated function is reported where it starts. -/
theorem inCode_of_deprecatedCall? {deprecated : List (String × String)} {number : Nat} {line : Line}
    {cursor next : Cursor} {reported : Option Finding} (on : cursor.On line)
    (more : cursor.rest ≠ [])
    (called : deprecatedCall? deprecated number cursor = some (reported, next)) :
    (∀ finding ∈ reported, ∀ lines, finding.InCode number (line :: lines)) ∧ next.On line := by
  simp only [deprecatedCall?] at called
  split at called
  · obtain ⟨⟨name, replacement⟩, _, matched⟩ := List.exists_of_findSome?_eq_some called
    obtain ⟨behind, reached, equal⟩ := Option.map_eq_some_iff.1 matched
    obtain ⟨afterName, spelled, bracket⟩ := Option.bind_eq_some_iff.1 reached
    obtain ⟨rfl, rfl⟩ := Prod.mk.inj equal
    refine ⟨?_, (on.chars? spelled).skipBlanks.chars? bracket⟩
    intro finding found lines
    split at found
    · cases found
    · cases found
      have stands := on.stands more (Cursor.prefix_of_chars? spelled)
      by_cases space : ' ' ∈ name.toList
      · exact .head (if_pos space) List.not_mem_nil rfl (stands.mono List.nil_prefix)
      · exact .head (if_neg space) space rfl stands
  · cases called

theorem inCode_of_mem_deprecatedCalls {rules : Rules} {first : Nat} {code : List Line}
    {finding : Finding} (member : finding ∈ deprecatedCalls rules first code) :
    finding.InCode first code := by
  induction code generalizing first with
  | nil => cases member
  | cons chars rest ih =>
      rcases List.mem_append.1 member with here | later
      · have searched : ∀ reported ∈
            (Cursor.start chars).findAll (deprecatedCall? rules.deprecated first),
            ∀ finding ∈ reported, ∀ lines, finding.InCode first (chars :: lines) :=
          Cursor.forall_mem_findAll fun cursor reported next on more =>
            inCode_of_deprecatedCall? on more
        obtain ⟨reported, inSearch, same⟩ := List.mem_filterMap.1 here
        exact searched reported inSearch finding same rest
      · exact (ih later).cons chars

theorem inCode_of_mem_globalAssignments {first : Nat} {declared : List (List Char)}
    {code : List Line} {finding : Finding}
    (member : finding ∈ globalAssignments first declared code) : finding.InCode first code := by
  induction code generalizing first declared with
  | nil => cases member
  | cons chars rest ih =>
      simp only [globalAssignments] at member
      split at member
      · exact (ih member).cons chars
      next name assigned =>
        split at member
        · exact (ih member).cons chars
        · rcases List.mem_cons.1 member with rfl | later
          · have on := on_of_assignedName? assigned
            exact .head String.toList_ofList on.space_notMem rfl on.stands
          · exact (ih later).cons chars

theorem inCode_of_mem_shadowedBuiltins {rules : Rules} {first : Nat} {code : List Line}
    {finding : Finding} (member : finding ∈ shadowedBuiltins rules first code) :
    finding.InCode first code := by
  induction code generalizing first with
  | nil => cases member
  | cons chars rest ih =>
      rcases List.mem_append.1 member with here | later
      · obtain ⟨name, kept, rfl⟩ := List.mem_map.1 here
        have on := on_of_mem_localNames (List.mem_of_mem_filter kept)
        exact .head String.toList_ofList on.space_notMem rfl on.stands
      · exact (ih later).cons chars

theorem inCode_of_mem_inspect {rules : Rules} {code : List Line} {finding : Finding}
    (member : finding ∈ inspect rules code) : finding.InCode 1 code := by
  rw [inspect, Finding.sort, List.mem_mergeSort, List.mem_append, List.mem_append] at member
  rcases member with (deprecated | global) | shadowed
  · exact inCode_of_mem_deprecatedCalls deprecated
  · exact inCode_of_mem_globalAssignments global
  · exact inCode_of_mem_shadowedBuiltins shadowed

end Lint

namespace Lua

/-! ## Blocks -/

/-- A word stands where it starts. -/
theorem stands_of_mem_wordsFrom {before : List Char} {column : Nat} {chars : List Char}
    {word : Word} (member : word ∈ wordsFrom before column chars) :
    Line.Stands column chars word.column word.chars := by
  induction before, column, chars using wordsFrom.induct with
  | case1 before column => simp [wordsFrom] at member
  | case2 before column char rest isWord run ih =>
      rw [wordsFrom, if_pos isWord] at member
      have whole : char :: rest = run ++ rest.dropWhile Text.isWord := by
        rw [List.cons_append, List.takeWhile_append_dropWhile]
      rw [whole]
      rcases List.mem_cons.1 member with rfl | later
      · exact .here (List.cons_ne_nil char _) (List.prefix_append _ _)
      · exact .behind run (ih later)
  | case3 before column char rest notFirst ih =>
      rw [wordsFrom, if_neg notFirst] at member
      exact .behind [char] (ih member)

theorem letters_of_ofWord? {word : List Char} {keyword : Keyword}
    (spells : Keyword.ofWord? word = some keyword) : word = keyword.letters := by
  rw [Keyword.ofWord?_eq_find?] at spells
  simpa using List.find?_some spells

theorem exists_of_mem_keywordsOf {expressions : Nat} {sequence : List Word} {found : KeywordAt}
    (member : found ∈ keywordsOf expressions sequence) :
    ∃ word ∈ sequence, word.chars = found.keyword.letters ∧ word.column = found.column := by
  induction sequence generalizing expressions with
  | nil => cases member
  | cons word rest ih =>
      have later {count : Nat} (member : found ∈ keywordsOf count rest) :
          ∃ other ∈ word :: rest, other.chars = found.keyword.letters ∧
            other.column = found.column := by
        obtain ⟨other, inRest, same⟩ := ih member
        exact ⟨other, List.mem_cons_of_mem word inRest, same⟩
      simp only [keywordsOf] at member
      split at member
      · exact later member
      next keyword spelled =>
        split at member
        · exact later member
        · rcases List.mem_cons.1 member with rfl | inRest
          · rw [Word.keyword?] at spelled
            split at spelled
            · cases spelled
            · exact ⟨word, List.mem_cons_self, letters_of_ofWord? spelled, rfl⟩
          · exact later inRest

/-- A keyword is where its letters are. -/
theorem shows_of_mem_keywords {first : Nat} {code : List Line} {keyword : Keyword}
    {position : Position} (member : (keyword, position) ∈ keywords first code) :
    position.Shows first code keyword.letters := by
  rw [keywords_eq_byLine, mem_byLine_iff] at member
  obtain ⟨index, chars, found, member⟩ := member
  obtain ⟨place, inLine, same⟩ := List.mem_map.1 member
  cases same
  obtain ⟨word, inWords, spelled, column⟩ := exists_of_mem_keywordsOf inLine
  refine ⟨index, chars, found, rfl, ?_⟩
  rw [← spelled, ← column]
  exact stands_of_mem_wordsFrom inWords

/-- Whether all that the balance of blocks holds and reports was drawn from a sequence of
keywords, and nothing was escalated. -/
structure BlockState.Drawn (sequence : List (Keyword × Position)) (state : BlockState) : Prop where
  stack : ∀ block ∈ state.stack, (.opener block.kind, block.opened) ∈ sequence
  findings : ∀ finding ∈ state.findings, finding.escalated = false ∧ ∃ keyword : Keyword,
    (keyword, finding.position) ∈ sequence ∧ finding.cause.mark = keyword.letters

namespace BlockState

/-- Opening a block reports nothing, and puts it on the stack unless it completes a header. -/
theorem openBlock_cases (state : BlockState) (kind : BlockKind) (position : Position) :
    (state.openBlock kind position).findings = state.findings ∧
      ((state.openBlock kind position).stack = ⟨kind, position, kind.hasHeader⟩ :: state.stack ∨
        ∃ loop opened rest, state.stack = ⟨loop, opened, true⟩ :: rest ∧
          (state.openBlock kind position).stack = ⟨loop, opened, false⟩ :: rest) := by
  rw [openBlock.eq_def]
  split
  next loop opened rest stack => exact ⟨rfl, .inr ⟨loop, opened, rest, stack, rfl⟩⟩
  · exact ⟨rfl, .inl rfl⟩

namespace Drawn

variable {sequence : List (Keyword × Position)} {state : BlockState} {position : Position}

theorem openBlock {kind : BlockKind} (drawn : state.Drawn sequence)
    (member : (.opener kind, position) ∈ sequence) :
    (state.openBlock kind position).Drawn sequence := by
  obtain ⟨findings, opened | ⟨loop, opened, rest, stack, completed⟩⟩ :=
    state.openBlock_cases kind position
  · refine ⟨?_, findings ▸ drawn.findings⟩
    rw [opened]
    exact List.forall_mem_cons.2 ⟨member, drawn.stack⟩
  · refine ⟨?_, findings ▸ drawn.findings⟩
    have before := drawn.stack
    rw [stack, List.forall_mem_cons] at before
    rw [completed]
    exact List.forall_mem_cons.2 before

theorem reportExtra {keyword : Keyword} {cause : Cause} (drawn : state.Drawn sequence)
    (member : (keyword, position) ∈ sequence) (about : cause.mark = keyword.letters) :
    ((state.noteExtra position).report cause position).Drawn sequence :=
  ⟨drawn.stack, List.forall_mem_cons.2 ⟨⟨rfl, keyword, member, about⟩, drawn.findings⟩⟩

theorem pop {top : OpenBlock} {rest : List OpenBlock} (drawn : state.Drawn sequence)
    (stack : state.stack = top :: rest) :
    ({ state with stack := rest } : BlockState).Drawn sequence :=
  ⟨fun block member => drawn.stack block (stack ▸ List.mem_cons_of_mem top member), drawn.findings⟩

theorem closeEnd (drawn : state.Drawn sequence) (member : (.blockEnd, position) ∈ sequence) :
    (state.closeEnd position).Drawn sequence := by
  have counted : ({ state with found := state.found + 1 } : BlockState).Drawn sequence :=
    ⟨drawn.stack, drawn.findings⟩
  rw [BlockState.closeEnd]
  dsimp only
  split
  next top rest stack => exact counted.pop stack
  · exact counted.reportExtra member rfl

theorem closeUntil (drawn : state.Drawn sequence) (member : (.loopUntil, position) ∈ sequence) :
    (state.closeUntil position).Drawn sequence := by
  rw [BlockState.closeUntil]
  split
  · exact drawn.reportExtra member rfl
  next top rest stack =>
    split
    · exact drawn.pop stack
    · exact drawn.reportExtra member rfl

theorem step {keyword : Keyword} (drawn : state.Drawn sequence)
    (member : (keyword, position) ∈ sequence) : (state.step keyword position).Drawn sequence := by
  cases keyword with
  | opener kind => exact drawn.openBlock member
  | blockEnd => exact drawn.closeEnd member
  | loopUntil => exact drawn.closeUntil member

theorem readKeywords {part : List (Keyword × Position)} (drawn : state.Drawn sequence)
    (within : ∀ found ∈ part, found ∈ sequence) :
    (Lua.readKeywords state part).Drawn sequence := by
  induction part generalizing state with
  | nil => exact drawn
  | cons found rest ih =>
      rw [List.forall_mem_cons] at within
      exact ih (drawn.step within.1) within.2

end Drawn

end BlockState

namespace BlockAnalysis

variable {code : List Line} {finding : Finding}

/-- What is reported of blocks is about a keyword. -/
theorem drawn_of_mem_findings (member : finding ∈ (ofCode code).findings) :
    finding.escalated = false ∧ ∃ keyword : Keyword,
      (keyword, finding.position) ∈ keywords 1 code ∧ finding.cause.mark = keyword.letters := by
  have drawn : (readKeywords {} (keywords 1 code)).Drawn (keywords 1 code) :=
    BlockState.Drawn.readKeywords ⟨List.forall_mem_nil _, List.forall_mem_nil _⟩
      fun _ found => found
  rcases List.mem_append.1 member with read | left
  · exact drawn.findings finding (List.mem_reverse.1 read)
  · obtain ⟨block, open_, rfl⟩ := List.mem_map.1 left
    exact ⟨rfl, .opener block.kind, drawn.stack block (List.mem_reverse.1 open_), rfl⟩

theorem inCode_of_mem_findings (member : finding ∈ (ofCode code).findings) :
    finding.InCode 1 code := by
  obtain ⟨_, keyword, found, about⟩ := drawn_of_mem_findings member
  refine ⟨about ▸ shows_of_mem_keywords found, ?_⟩
  rw [about]
  intro space
  exact absurd (keyword.isWord_letters ' ' space) (by decide)

end BlockAnalysis

/-! ## Brackets -/

/-- The character that a bracket is. -/
def Bracket.char : Bracket → Char
  | opening family => family.opening
  | closing family => family.closing

theorem Bracket.char_of_ofChar? {char : Char} {bracket : Bracket}
    (is : ofChar? char = some bracket) : char = bracket.char := by
  rw [ofChar?] at is
  split_ifs at is <;> cases is <;> assumption

theorem Bracket.space_ne_char (bracket : Bracket) : ' ' ≠ bracket.char := by
  cases bracket with
  | opening family => cases family <;> decide
  | closing family => cases family <;> decide

/-- A bracket is where its character is. -/
theorem shows_of_mem_brackets {first : Nat} {code : List Line} {bracket : Bracket}
    {position : Position} (member : (bracket, position) ∈ brackets first code) :
    position.Shows first code [bracket.char] := by
  obtain ⟨row, index, chars, char, found, stands, is, rfl⟩ := mem_brackets_iff.1 member
  obtain ⟨inside, rfl⟩ := List.getElem?_eq_some_iff.1 stands
  refine ⟨row, chars, found, rfl, chars.take index, chars.drop index, ?_, ?_, ?_, ?_⟩
  · exact (List.take_append_drop index chars).symm
  · rw [List.length_take_of_le (Nat.le_of_lt inside)]
  · simpa using inside
  · rw [List.drop_eq_getElem_cons inside, ← Bracket.char_of_ofChar? is]
    exact ⟨_, rfl⟩

namespace BracketAnalysis

variable {code : List Line} {finding : Finding}

/-- What is reported of brackets is about a bracket. -/
theorem drawn_of_mem_findings (member : finding ∈ (ofCode code).findings) :
    finding.escalated = false ∧ ∃ bracket : Bracket,
      (bracket, finding.position) ∈ brackets 1 code ∧ finding.cause.mark = [bracket.char] := by
  have accounts := accounts_ofState (pairwise_precedes_brackets 1 code)
  rcases (accounts.mem_findings_iff finding).1 member with
    ⟨opener, closing, closedAt, ⟨before, inner, after, word, _⟩, _, rfl⟩ |
    ⟨closing, closedAt, found, _, rfl⟩ | ⟨opener, found, _, rfl⟩
  · exact ⟨rfl, .closing closing, by simp [word], rfl⟩
  · exact ⟨rfl, .closing closing, found, rfl⟩
  · exact ⟨rfl, .opening opener.family, found, rfl⟩

theorem inCode_of_mem_findings (member : finding ∈ (ofCode code).findings) :
    finding.InCode 1 code := by
  obtain ⟨_, bracket, found, about⟩ := drawn_of_mem_findings member
  refine ⟨about ▸ shows_of_mem_brackets found, ?_⟩
  rw [about, List.mem_singleton]
  exact bracket.space_ne_char

/-- A bracket of a wrong family has the place of its partner, which opened before it. -/
theorem partner_of_mem_findings {closing opening : Family} {openedAt : Position}
    (member : finding ∈ (ofCode code).findings)
    (wrong : finding.cause = .wrongBracket closing opening openedAt) :
    opening ≠ closing ∧ openedAt.Precedes finding.position ∧
      openedAt.Shows 1 code [opening.opening] := by
  have inOrder := pairwise_precedes_brackets 1 code
  rcases ((accounts_ofState inOrder).mem_findings_iff finding).1 member with
    ⟨opener, closer, closedAt, ⟨before, inner, after, word, _⟩, different, rfl⟩ |
    ⟨closer, closedAt, _, _, rfl⟩ | ⟨opener, _, _, rfl⟩
  · cases wrong
    have found : opener.token ∈ brackets 1 code := by simp [word]
    refine ⟨different, ?_, shows_of_mem_brackets found⟩
    rw [word, List.pairwise_append, List.pairwise_cons] at inOrder
    exact inOrder.2.1.1 (.closing closing, closedAt) (by simp)
  · cases wrong
  · cases wrong

end BracketAnalysis

/-! ## Regions -/

/-- Whether a line whose columns are counted from `start` has what a scan of it leaves open. -/
structure LineScan.LeavesOpen (line start : Nat) (chars : Line) (scan : LineScan) : Prop where
  openString : ∀ quote column, scan.openString = some (quote, column) →
    quote ∈ ['"', '\''] ∧ chars.Stands start column [quote]
  carry : ∀ bracket, scan.carry = some bracket → bracket.opened.line = line ∧
    chars.Stands start bracket.opened.column (longOpener bracket.level bracket.isComment)

namespace LineScan.LeavesOpen

variable {line start : Nat} {chars : Line} {scan : LineScan}

theorem closed (line start : Nat) (chars : Line) (pieces : List Piece) :
    LeavesOpen line start chars ⟨pieces, none, none⟩ := by
  constructor
  · intro quote column opened
    cases opened
  · intro bracket opened
    cases opened

/-- What a scan leaves open is as far behind as the characters in front of it are many. -/
theorem behind {other : LineScan} (front : List Char)
    (leaves : LeavesOpen line (start + front.length) chars scan)
    (sameString : other.openString = scan.openString) (sameCarry : other.carry = scan.carry) :
    LeavesOpen line start (front ++ chars) other := by
  constructor
  · intro quote column opened
    obtain ⟨isQuote, stands⟩ := leaves.openString quote column (sameString ▸ opened)
    exact ⟨isQuote, stands.behind front⟩
  · intro bracket opened
    obtain ⟨onLine, stands⟩ := leaves.carry bracket (sameCarry ▸ opened)
    exact ⟨onLine, stands.behind front⟩

theorem prepend (piece : Piece)
    (leaves : LeavesOpen line (start + piece.chars.length) chars scan) :
    LeavesOpen line start (piece.chars ++ chars) (scan.prepend piece) :=
  behind piece.chars leaves rfl rfl

theorem prependCode (char : Char) (leaves : LeavesOpen line (start + 1) chars scan) :
    LeavesOpen line start (char :: chars) (scan.prependCode char) := by
  refine behind [char] leaves ?_ (LineScan.carry_prependCode char scan)
  rcases LineScan.prependCode_cases char scan with ⟨first, others, _, equal⟩ | equal
  · rw [equal]
  · rw [equal]

theorem scanCode (line column : Nat) (chars : List Char) :
    LeavesOpen line column chars (Lua.scanCode line column chars) := by
  induction column, chars using Lua.scanCode.induct with
  | case1 column =>
      rw [scanCode_nil]
      exact closed line column [] []
  | case2 column char rest opens ih =>
      rw [scanCode_code opens]
      exact ih.prependCode char
  | case3 column char rest opens =>
      rw [scanCode_lineComment opens]
      exact closed line column _ _
  | case4 column char rest level isComment opens uncut =>
      rw [scanCode_long_open opens uncut]
      constructor
      · intro quote place opened
        cases opened
      · intro bracket opened
        cases opened
        exact ⟨rfl, .here (List.cons_ne_nil char rest) (opening?_eq_long_iff.1 opens)⟩
  | case5 column char rest level isComment opens body after cut ih =>
      rw [eq_longOpener_append opens, scanCode_opener_closed cut, eq_append_of_splitAfter? cut,
        ← List.append_assoc]
      refine prepend ⟨.longBracket level isComment, longOpener level isComment ++ body⟩ ?_
      rw [List.length_append, length_longOpener, ← Nat.add_assoc]
      exact ih
  | case6 column char rest quote opens unclosed =>
      rw [scanCode_string_open opens unclosed]
      obtain ⟨isQuote, stands⟩ := opening?_eq_shortString_iff.1 opens
      constructor
      · intro other place opened
        cases opened
        exact ⟨by simpa using isQuote, .here (List.cons_ne_nil char rest) stands⟩
      · intro bracket opened
        cases opened
  | case7 column char rest quote opens body after closed ih =>
      rw [scanCode_string_closed opens closed, eq_append_of_closeString? closed, ← List.cons_append]
      refine prepend ⟨.shortString, char :: body⟩ ?_
      rw [List.length_cons, Nat.add_comm body.length 1, ← Nat.add_assoc]
      exact ih

end LineScan.LeavesOpen

/-- A line leaves open what opens on it, or else what was carried into it. -/
theorem leavesOpen_scanLine (line : Nat) (carry : Option OpenBracket) (chars : Line) :
    (scanLine line carry chars).LeavesOpen line 1 chars ∨
      (scanLine line carry chars).openString = none ∧
        (scanLine line carry chars).carry = carry := by
  cases carry with
  | none => exact .inl (.scanCode line 1 chars)
  | some bracket =>
      rw [scanLine]
      cases cut : splitAfter? (longCloser bracket.level) chars with
      | none => exact .inr ⟨rfl, rfl⟩
      | some pair =>
          obtain ⟨body, after⟩ := pair
          rw [eq_append_of_splitAfter? cut]
          exact .inl (.prepend ⟨_, body⟩ (.scanCode line (1 + body.length) after))

theorem shows_of_mem_openStrings {first : Nat} {carry : Option OpenBracket} {lines : List Line}
    {finding : Finding} (member : finding ∈ openStrings first (scanLines first carry lines)) :
    ∃ quote, finding.cause = .openString quote ∧ quote ∈ ['"', '\''] ∧
      finding.position.Shows first lines [quote] := by
  induction lines generalizing first carry with
  | nil => cases member
  | cons chars rest ih =>
      rcases List.mem_append.1 member with here | later
      · split at here
        next quote column opened =>
          rw [List.mem_singleton] at here
          subst here
          rcases leavesOpen_scanLine first carry chars with leaves | ⟨none, _⟩
          · obtain ⟨isQuote, stands⟩ := leaves.openString quote column opened
            exact ⟨quote, rfl, isQuote, .head rfl stands⟩
          · rw [none] at opened
            cases opened
        · cases here
      · obtain ⟨quote, cause, isQuote, shows⟩ := ih later
        exact ⟨quote, cause, isQuote, shows.cons chars⟩

/-- A long bracket that a line leaves open stands on that line or before it. -/
theorem shows_of_carry {first : Nat} {carry : Option OpenBracket} {lines : List Line}
    {scan : LineScan} (member : scan ∈ scanLines first carry lines) {bracket : OpenBracket}
    (opened : scan.carry = some bracket) :
    carry = some bracket ∨
      bracket.opened.Shows first lines (longOpener bracket.level bracket.isComment) := by
  induction lines generalizing first carry with
  | nil => cases member
  | cons chars rest ih =>
      -- what the first line carries over is what the rest starts with
      have head (carried : (scanLine first carry chars).carry = some bracket) :
          carry = some bracket ∨ bracket.opened.Shows first (chars :: rest)
            (longOpener bracket.level bracket.isComment) := by
        rcases leavesOpen_scanLine first carry chars with leaves | ⟨_, same⟩
        · obtain ⟨onLine, stands⟩ := leaves.carry bracket carried
          exact .inr (.head onLine stands)
        · exact .inl (same ▸ carried)
      rcases List.mem_cons.1 member with rfl | later
      · exact head opened
      · rcases ih later with carried | shows
        · exact head carried
        · exact .inr (shows.cons chars)

/-! ## Code and text -/

/-- What has no space in it was there before the blotting. -/
theorem Blots.stands {olds news : Line} {start column : Nat} {mark : List Char}
    (blots : Blots olds news) (noSpace : ' ' ∉ mark) (stands : news.Stands start column mark) :
    olds.Stands start column mark := by
  obtain ⟨before, after, rfl, rfl, nonempty, stands⟩ := stands
  have length : olds.length = before.length + after.length := by
    rw [List.Forall₂.length_eq blots, List.length_append]
  have further := List.length_pos_of_ne_nil nonempty
  refine ⟨olds.take before.length, olds.drop before.length, ?_, ?_, ?_, ?_⟩
  · exact (List.take_append_drop before.length olds).symm
  · rw [List.length_take_of_le (by omega)]
  · rw [← List.length_pos_iff_ne_nil, List.length_drop]
    omega
  · exact prefix_of_prefix (List.forall₂_drop_append olds before after blots) noSpace stands

theorem Scan.shows_of_code {text : List Char} {position : Position} {mark : List Char}
    (noSpace : ' ' ∉ mark) (shows : position.Shows 1 (ofText text).code mark) :
    position.Shows 1 (Line.split text) mark := by
  obtain ⟨index, chars, found, onLine, stands⟩ := shows
  obtain ⟨carried, equal⟩ := exists_getElem?_code text index
  rw [equal] at found
  obtain ⟨old, stood, rfl⟩ := Option.map_eq_some_iff.1 found
  have blots := (LineScan.Cuts.scanLine (1 + index) carried old).blots
  exact ⟨index, old, stood, onLine, blots.stands noSpace stands⟩

end Lua

/-! ## The account -/

/-- What a finding says of the lines of a text. -/
structure Finding.PointsInto (lines : List Line) (finding : Finding) : Prop where
  /-- It is on one of the lines, -/
  line_bounds : 1 ≤ finding.position.line ∧ finding.position.line ≤ lines.length
  /-- at one of its characters, -/
  column_bounds : 1 ≤ finding.position.column ∧
    finding.position.column ≤ (lines.getD (finding.position.line - 1) []).length
  /-- and what it is about stands there. -/
  shows : finding.position.Shows 1 lines finding.cause.mark
  /-- A string that is cut off starts with one of the quotes. -/
  quote : ∀ quote, finding.cause = .openString quote → quote ∈ ['"', '\'']
  /-- A bracket of a wrong family comes behind the one that it meets, which stands where it is said
  to stand. -/
  partner : ∀ closing opening openedAt, finding.cause = .wrongBracket closing opening openedAt →
    opening ≠ closing ∧ openedAt.Precedes finding.position ∧
      openedAt.Shows 1 lines [opening.opening]

namespace Finding.PointsInto

variable {lines : List Line} {finding : Finding}

/-- The bounds follow from what stands there. -/
theorem of_shows (shows : finding.position.Shows 1 lines finding.cause.mark)
    (quote : ∀ quote, finding.cause = .openString quote → quote ∈ ['"', '\''])
    (partner : ∀ closing opening openedAt,
      finding.cause = .wrongBracket closing opening openedAt →
      opening ≠ closing ∧ openedAt.Precedes finding.position ∧
        openedAt.Shows 1 lines [opening.opening]) : finding.PointsInto lines := by
  obtain ⟨index, chars, found, onLine, stands⟩ := shows
  have bounds := stands.bounds
  have inside : index < lines.length := (List.getElem?_eq_some_iff.1 found).1
  refine ⟨by omega, ?_, ⟨index, chars, found, onLine, stands⟩, quote, partner⟩
  have line : lines.getD (finding.position.line - 1) [] = chars := by
    rw [onLine, Nat.add_sub_cancel_left, List.getD_eq_getElem?_getD, found, Option.getD_some]
  rw [line]
  omega

/-- Most kinds of findings have nothing to say of quotes and partners. -/
theorem of_kind (shows : finding.position.Shows 1 lines finding.cause.mark)
    (kind : finding.kind ∉ [.unterminatedString, .bracketMismatch]) : finding.PointsInto lines := by
  refine of_shows shows ?_ ?_
  · intro quote cause
    rw [Finding.kind, cause] at kind
    exact absurd List.mem_cons_self kind
  · intro closing opening openedAt cause
    rw [Finding.kind, cause] at kind
    exact absurd (List.mem_cons_of_mem _ List.mem_cons_self) kind

end Finding.PointsInto

namespace Analysis

open Lua

variable {rules : Option Lint.Rules} {text : List Char} {finding : Finding}

theorem pointsInto_of_mem_scan (member : finding ∈ (Scan.ofText text).findings) :
    finding.PointsInto (Line.split text) := by
  rcases List.mem_append.1 member with cutOff | left
  · obtain ⟨quote, cause, isQuote, shows⟩ := shows_of_mem_openStrings cutOff
    refine .of_shows ?_ ?_ ?_
    · rw [cause]
      exact shows
    · intro other same
      cases cause.symm.trans same
      exact isQuote
    · intro closing opening openedAt same
      cases cause.symm.trans same
  · split at left
    next bracket opened =>
      rw [List.mem_singleton] at left
      subst left
      obtain ⟨scan, last, carries⟩ := Option.bind_eq_some_iff.1 opened
      rcases shows_of_carry (List.mem_of_getLast? last) carries with carried | shows
      · cases carried
      · exact .of_kind shows (by simp [Finding.kind, Cause.kind])
    · cases left

theorem pointsInto_of_mem_brackets (member : finding ∈ (ofText rules text).brackets.findings) :
    finding.PointsInto (Line.split text) := by
  have inCode := BracketAnalysis.inCode_of_mem_findings member
  refine .of_shows (Scan.shows_of_code inCode.noSpace inCode.shows) ?_ ?_
  · intro quote cause
    have kind := BracketAnalysis.kind_ofCode _ finding member
    rw [isBracketFinding, Finding.kind, cause] at kind
    simp [Cause.kind] at kind
  · intro closing opening openedAt wrong
    obtain ⟨different, before, shows⟩ := BracketAnalysis.partner_of_mem_findings member wrong
    refine ⟨different, before, Scan.shows_of_code ?_ shows⟩
    rw [List.mem_singleton]
    exact (Bracket.opening opening).space_ne_char

theorem pointsInto_of_mem_findings (member : finding ∈ (ofText rules text).findings) :
    finding.PointsInto (Line.split text) := by
  simp only [findings, List.mem_append] at member
  rcases member with ((region | block) | bracket) | advice
  · obtain ⟨found, inScan, rfl⟩ := List.mem_map.1 region
    have points := pointsInto_of_mem_scan inScan
    constructor
    all_goals simp only [cause_escalate, position_escalate]
    · exact points.line_bounds
    · exact points.column_bounds
    · exact points.shows
    · exact points.quote
    · exact points.partner
  · have inCode := BlockAnalysis.inCode_of_mem_findings block
    have others : ∀ kind ∈ [FindingKind.extraCloser, .mismatchedUntil, .unclosedBlock],
        kind ∉ [FindingKind.unterminatedString, .bracketMismatch] := by
      decide
    exact .of_kind (Scan.shows_of_code inCode.noSpace inCode.shows)
      (others _ (BlockAnalysis.kind_ofCode _ finding block))
  · exact pointsInto_of_mem_brackets bracket
  · have others : ∀ kind ∈ [FindingKind.deprecatedApi, .implicitGlobal, .namingConvention],
        kind ∉ [FindingKind.unterminatedString, .bracketMismatch] := by
      decide
    have inCode : finding.InCode 1 (Scan.ofText text).code := by
      cases rules with
      | none => cases advice
      | some rules => exact Lint.inCode_of_mem_inspect advice
    exact .of_kind (Scan.shows_of_code inCode.noSpace inCode.shows)
      (others _ (isAdvice_advice rules text advice).kind)

end Analysis

namespace Report

section Members

variable {policy : Policy} {text : List Char} {finding : Finding}

theorem mem_errors_iff :
    finding ∈ (ofText policy text).errors ↔
      finding ∈ (Analysis.ofText policy.rules text).findings ∧ finding.isError = true :=
  List.mem_mergeSort.trans List.mem_filter

theorem mem_warnings_iff :
    finding ∈ (ofText policy text).warnings ↔
      finding ∈ (Analysis.ofText policy.rules text).findings ∧ (!finding.isError) = true :=
  List.mem_mergeSort.trans List.mem_filter

theorem mem_findings_of_mem
    (member : finding ∈ (ofText policy text).errors ++ (ofText policy text).warnings) :
    finding ∈ (Analysis.ofText policy.rules text).findings := by
  rcases List.mem_append.1 member with error | warning
  · exact (mem_errors_iff.1 error).1
  · exact (mem_warnings_iff.1 warning).1

end Members

/-- Every finding of a report points into the text. -/
theorem pointsInto_of_reported (policy : Policy) (text : List Char) (finding : Finding)
    (reported : finding ∈ (ofText policy text).errors ++ (ofText policy text).warnings) :
    finding.PointsInto (Line.split text) :=
  Analysis.pointsInto_of_mem_findings (mem_findings_of_mem reported)

/-- The square bracket on the first line is reported with the round one before it. -/
theorem pointsInto_of_reported_partners :
    ({ cause := .wrongBracket .square .round ⟨1, 2⟩, position := ⟨1, 4⟩ } : Finding) ∈
        (ofText ⟨false, none⟩ "f(a]\nend".toList).errors ++
          (ofText ⟨false, none⟩ "f(a]\nend".toList).warnings ∧
      ({ cause := .wrongBracket .square .round ⟨1, 2⟩, position := ⟨1, 4⟩ } : Finding).PointsInto
        (Line.split "f(a]\nend".toList) := by
  have reported : ({ cause := .wrongBracket .square .round ⟨1, 2⟩, position := ⟨1, 4⟩ } : Finding) ∈
      (ofText ⟨false, none⟩ "f(a]\nend".toList).errors ++
        (ofText ⟨false, none⟩ "f(a]\nend".toList).warnings := by
    refine List.mem_append_left _ (List.mem_mergeSort.2 ?_)
    decide +kernel
  exact ⟨reported, pointsInto_of_reported ⟨false, none⟩ _ _ reported⟩

end Report

end EditGate

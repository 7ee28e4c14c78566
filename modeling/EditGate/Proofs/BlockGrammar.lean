import EditGate.Proofs.BlockBalance
import EditGate.Report
import Mathlib

/-!
# The grammar of balanced blocks

The stack of open blocks recognises a context-free grammar. A `do` opens a block of its own
everywhere but in the header of a loop, where it ends the header; so what may stand in a
header is a phrase of its own, without blocks of `do`.

To see that the stack accepts no more than the grammar, the sequence is read from its end:
what closes a stack of open blocks begins with the rest of the innermost phrase, and goes
on with what closes the blocks around it.
-/

namespace EditGate.Lua

/-! ## The grammar -/

/-- The phrases of the grammar. -/
inductive Phrase where
  /-- What stands in a block. -/
  | body
  /-- One part of a body. -/
  | item
  /-- An item that is no block of `do`. -/
  | construct
  /-- What stands between `for` or `while` and its `do`. -/
  | header

/-- The sequences of keywords that a phrase derives. -/
inductive Derives : Phrase → List Keyword → Prop where
  | emptyBody : Derives .body []
  | bodyItem {first rest : List Keyword} :
      Derives .item first → Derives .body rest → Derives .body (first ++ rest)
  | doBlock {inner : List Keyword} :
      Derives .body inner → Derives .item (.opener .doBlock :: (inner ++ [.blockEnd]))
  | construct {word : List Keyword} : Derives .construct word → Derives .item word
  | functionBody {inner : List Keyword} :
      Derives .body inner → Derives .construct (.opener .functionBody :: (inner ++ [.blockEnd]))
  | conditional {inner : List Keyword} :
      Derives .body inner → Derives .construct (.opener .conditional :: (inner ++ [.blockEnd]))
  | bareLoop {kind : BlockKind} {head : List Keyword} :
      kind = .forLoop ∨ kind = .whileLoop → Derives .header head →
      Derives .construct (.opener kind :: (head ++ [.blockEnd]))
  | loop {kind : BlockKind} {head inner : List Keyword} :
      kind = .forLoop ∨ kind = .whileLoop → Derives .header head → Derives .body inner →
      Derives .construct (.opener kind :: (head ++ .opener .doBlock :: (inner ++ [.blockEnd])))
  | repeatUntil {inner : List Keyword} :
      Derives .body inner → Derives .construct (.opener .repeatLoop :: (inner ++ [.loopUntil]))
  | repeatEnd {inner : List Keyword} :
      Derives .body inner → Derives .construct (.opener .repeatLoop :: (inner ++ [.blockEnd]))
  | emptyHeader : Derives .header []
  | headerConstruct {first rest : List Keyword} :
      Derives .construct first → Derives .header rest → Derives .header (first ++ rest)

/-! ## Slots -/

/-- What an open block waits for. -/
inductive Slot where
  /-- A loop in its header, where a `do` or an `end` is to come. -/
  | header
  /-- A block that only an `end` closes. -/
  | block
  /-- A `repeat`, which an `until` closes too. -/
  | repeated

namespace Slot

/-- What a block waits for that was just opened. -/
def ofKind : BlockKind → Slot
  | .forLoop | .whileLoop => header
  | .repeatLoop => repeated
  | .functionBody | .conditional | .doBlock => block

/-- The phrase that is being read in a block. -/
def phrase : Slot → Phrase
  | header => .header
  | block | repeated => .body

/-- What one keyword does to the open blocks, the innermost first, unless it fits nowhere. -/
def advance? (slots : List Slot) : Keyword → Option (List Slot)
  | .opener .doBlock =>
      match slots with
      | header :: rest => some (block :: rest)
      | slots => some (block :: slots)
  | .opener kind => some (ofKind kind :: slots)
  | .blockEnd => slots.tail?
  | .loopUntil =>
      match slots with
      | repeated :: rest => some rest
      | _ => none

/-- Whether keywords close all open blocks and fit everywhere. -/
def Closes (slots : List Slot) : List Keyword → Prop
  | [] => slots = []
  | keyword :: rest => ∃ next, advance? slots keyword = some next ∧ Closes next rest

/-- Whether no header is being read innermost, so that a `do` opens a block. -/
def OutsideHeader (slots : List Slot) : Prop :=
  slots.head? ≠ some header

theorem advance?_do {slots : List Slot} (outside : OutsideHeader slots) :
    advance? slots (.opener .doBlock) = some (block :: slots) := by
  cases slots with
  | nil => rfl
  | cons slot rest =>
      cases slot with
      | header => exact absurd rfl outside
      | block => rfl
      | repeated => rfl

theorem advance?_opener {kind : BlockKind} (notDo : kind ≠ .doBlock) (slots : List Slot) :
    advance? slots (.opener kind) = some (ofKind kind :: slots) := by
  cases kind with
  | doBlock => exact absurd rfl notDo
  | functionBody | conditional | forLoop | whileLoop | repeatLoop => rfl

/-! ## What a phrase derives fits -/

/-- Whether a phrase may be read with these blocks open. -/
def Admits (slots : List Slot) : Phrase → Prop
  | .body | .item => OutsideHeader slots
  | .construct | .header => True

/-- What a phrase derives opens and closes its own blocks only. -/
theorem Closes.prepend {phrase : Phrase} {word : List Keyword} (derives : Derives phrase word)
    {slots : List Slot} (admits : Admits slots phrase) {after : List Keyword}
    (closes : Closes slots after) : Closes slots (word ++ after) := by
  induction derives generalizing slots after with
  | emptyBody | emptyHeader => exact closes
  | bodyItem _ _ first rest | headerConstruct _ _ first rest =>
      rw [List.append_assoc]
      exact first admits (rest admits closes)
  | construct _ ih => exact ih trivial closes
  | doBlock _ inner =>
      rw [List.cons_append, List.append_assoc]
      exact ⟨_, advance?_do admits, inner (by simp [Admits, OutsideHeader]) ⟨slots, rfl, closes⟩⟩
  | functionBody _ inner | conditional _ inner =>
      rw [List.cons_append, List.append_assoc]
      exact ⟨block :: slots, rfl, inner (by simp [Admits, OutsideHeader]) ⟨slots, rfl, closes⟩⟩
  | bareLoop isLoop _ head =>
      rw [List.cons_append, List.append_assoc]
      rcases isLoop with rfl | rfl <;>
        exact ⟨header :: slots, rfl, head trivial ⟨slots, rfl, closes⟩⟩
  | loop isLoop _ _ head inner =>
      have ends : Closes (block :: slots) (.blockEnd :: after) := ⟨slots, rfl, closes⟩
      have body := inner (by simp [Admits, OutsideHeader]) ends
      simp only [List.cons_append, List.append_assoc]
      rcases isLoop with rfl | rfl <;>
        exact ⟨header :: slots, rfl, head trivial ⟨block :: slots, rfl, body⟩⟩
  | repeatUntil _ inner | repeatEnd _ inner =>
      rw [List.cons_append, List.append_assoc]
      exact ⟨repeated :: slots, rfl, inner (by simp [Admits, OutsideHeader]) ⟨slots, rfl, closes⟩⟩

/-! ## What closes the open blocks is derived -/

/-- Sequences that close open blocks: the rest of the phrase in the innermost one, what ends
it, and what closes the others. -/
inductive Remainder : List Slot → List Keyword → Prop where
  | outermost {word : List Keyword} : Derives .body word → Remainder [] word
  | ended {slot : Slot} {inner after : List Keyword} {slots : List Slot} :
      Derives slot.phrase inner → Remainder slots after →
      Remainder (slot :: slots) (inner ++ .blockEnd :: after)
  | untilled {inner after : List Keyword} {slots : List Slot} :
      Derives .body inner → Remainder slots after →
      Remainder (repeated :: slots) (inner ++ .loopUntil :: after)
  | begun {head after : List Keyword} {slots : List Slot} :
      Derives .header head → Remainder (block :: slots) after →
      Remainder (header :: slots) (head ++ .opener .doBlock :: after)

namespace Remainder

variable {slots : List Slot} {word : List Keyword}

/-- The empty sequence is derived wherever a phrase is being read. -/
theorem derives_nil (slot : Slot) : Derives slot.phrase [] := by
  cases slot with
  | header => exact .emptyHeader
  | block => exact .emptyBody
  | repeated => exact .emptyBody

/-- A construct may stand first in any block. -/
theorem derives_append {slot : Slot} {first rest : List Keyword}
    (construct : Derives .construct first) (derives : Derives slot.phrase rest) :
    Derives slot.phrase (first ++ rest) := by
  cases slot with
  | header => exact .headerConstruct construct derives
  | block => exact .bodyItem (.construct construct) derives
  | repeated => exact .bodyItem (.construct construct) derives

/-- A construct may be read whatever is open. -/
theorem prepend (remainder : Remainder slots word) {first : List Keyword}
    (construct : Derives .construct first) : Remainder slots (first ++ word) := by
  cases remainder with
  | outermost body => exact .outermost (.bodyItem (.construct construct) body)
  | ended inner after =>
      rw [← List.append_assoc]
      exact .ended (derives_append construct inner) after
  | untilled inner after =>
      rw [← List.append_assoc]
      exact .untilled (.bodyItem (.construct construct) inner) after
  | begun head after =>
      rw [← List.append_assoc]
      exact .begun (.headerConstruct construct head) after

/-- Any item may be read outside of headers. -/
theorem prepend_item (remainder : Remainder slots word) (outside : OutsideHeader slots)
    {first : List Keyword} (item : Derives .item first) : Remainder slots (first ++ word) := by
  cases remainder with
  | outermost body => exact .outermost (.bodyItem item body)
  | @ended slot inner _ _ derives after =>
      rw [← List.append_assoc]
      cases slot with
      | header => exact absurd rfl outside
      | block => exact .ended (.bodyItem item derives) after
      | repeated => exact .ended (.bodyItem item derives) after
  | untilled inner after =>
      rw [← List.append_assoc]
      exact .untilled (.bodyItem item inner) after
  | begun _ _ => exact absurd rfl outside

theorem of_block (remainder : Remainder (block :: slots) word) :
    ∃ inner after, Derives .body inner ∧ Remainder slots after ∧
      word = inner ++ .blockEnd :: after := by
  cases remainder with
  | ended inner after => exact ⟨_, _, inner, after, rfl⟩

/-- A block of `do` that is opened outside of headers is an item. -/
theorem open_do (outside : OutsideHeader slots) (remainder : Remainder (block :: slots) word) :
    Remainder slots (.opener .doBlock :: word) := by
  obtain ⟨inner, after, derives, rest, rfl⟩ := remainder.of_block
  simpa using rest.prepend_item outside (.doBlock derives)

/-- A loop that is opened is a construct, whether its header ends or not. -/
theorem open_loop {kind : BlockKind} (isLoop : kind = .forLoop ∨ kind = .whileLoop)
    (remainder : Remainder (header :: slots) word) : Remainder slots (.opener kind :: word) := by
  cases remainder with
  | ended head rest => simpa using rest.prepend (.bareLoop isLoop head)
  | begun head begun =>
      obtain ⟨inner, after, derives, rest, rfl⟩ := begun.of_block
      simpa using rest.prepend (.loop isLoop head derives)

/-- Any block but one of `do` that is opened is a construct. -/
theorem open_construct {kind : BlockKind} (notDo : kind ≠ .doBlock)
    (remainder : Remainder (ofKind kind :: slots) word) :
    Remainder slots (.opener kind :: word) := by
  cases kind with
  | doBlock => exact absurd rfl notDo
  | functionBody =>
      obtain ⟨inner, after, derives, rest, rfl⟩ := remainder.of_block
      simpa using rest.prepend (.functionBody derives)
  | conditional =>
      obtain ⟨inner, after, derives, rest, rfl⟩ := remainder.of_block
      simpa using rest.prepend (.conditional derives)
  | forLoop => exact remainder.open_loop (.inl rfl)
  | whileLoop => exact remainder.open_loop (.inr rfl)
  | repeatLoop =>
      cases remainder with
      | ended inner rest => simpa using rest.prepend (.repeatEnd inner)
      | untilled inner rest => simpa using rest.prepend (.repeatUntil inner)

end Remainder

/-- What closes the open blocks is the remainder of their phrases. -/
theorem Closes.remainder {slots : List Slot} {word : List Keyword} (closes : Closes slots word) :
    Remainder slots word := by
  induction word generalizing slots with
  | nil =>
      obtain rfl : slots = [] := closes
      exact .outermost .emptyBody
  | cons keyword rest ih =>
      obtain ⟨next, advanced, closed⟩ := closes
      have remainder := ih closed
      cases keyword with
      | opener kind =>
          by_cases isDo : kind = .doBlock
          · subst isDo
            by_cases inside : slots.head? = some header
            · obtain ⟨others, rfl⟩ := List.head?_eq_some_iff.1 inside
              cases advanced
              exact .begun .emptyHeader remainder
            · rw [advance?_do inside] at advanced
              cases advanced
              exact remainder.open_do inside
          · rw [advance?_opener isDo] at advanced
            cases advanced
            exact remainder.open_construct isDo
      | blockEnd =>
          cases slots with
          | nil => cases advanced
          | cons slot others =>
              obtain rfl : others = next := by simpa [advance?] using advanced
              exact .ended (Remainder.derives_nil slot) remainder
      | loopUntil =>
          cases slots with
          | nil => cases advanced
          | cons slot others =>
              cases slot with
              | header | block => cases advanced
              | repeated =>
                  cases advanced
                  exact .untilled .emptyBody remainder

/-- The keywords that fit everywhere and leave nothing open are those that a body derives. -/
theorem closes_nil_iff_derives (word : List Keyword) : Closes [] word ↔ Derives .body word := by
  constructor
  · intro closes
    cases closes.remainder with
    | outermost body => exact body
  · intro body
    have closed : Closes [] [] := rfl
    simpa using Closes.prepend body (by simp [Admits, OutsideHeader]) closed

end Slot

/-! ## The stack of open blocks -/

/-- An open block waits for what a slot says. -/
inductive OpenBlock.Waits : OpenBlock → Slot → Prop where
  | header {kind : BlockKind} {opened : Position} :
      kind ≠ .repeatLoop → Waits ⟨kind, opened, true⟩ .header
  | block {kind : BlockKind} {opened : Position} :
      kind ≠ .repeatLoop → Waits ⟨kind, opened, false⟩ .block
  | repeated {opened : Position} : Waits ⟨.repeatLoop, opened, false⟩ .repeated

theorem OpenBlock.waits_opened (kind : BlockKind) (position : Position) :
    Waits ⟨kind, position, kind.hasHeader⟩ (.ofKind kind) := by
  cases kind with
  | repeatLoop => exact .repeated
  | forLoop => exact .header (by decide)
  | whileLoop => exact .header (by decide)
  | functionBody => exact .block (by decide)
  | conditional => exact .block (by decide)
  | doBlock => exact .block (by decide)

namespace BlockState

/-- The stack of a state waits for what slots say. -/
def Waits (state : BlockState) (slots : List Slot) : Prop :=
  List.Forall₂ OpenBlock.Waits state.stack slots

/-- A block is opened on top of the others, unless a `do` may end a header. -/
theorem openBlock_of_ne_do {kind : BlockKind} (notDo : kind ≠ .doBlock) (state : BlockState)
    (position : Position) :
    (state.openBlock kind position).stack = ⟨kind, position, kind.hasHeader⟩ :: state.stack ∧
      (state.openBlock kind position).findings = state.findings := by
  cases kind with
  | doBlock => exact absurd rfl notDo
  | functionBody | conditional | forLoop | whileLoop | repeatLoop => exact ⟨rfl, rfl⟩

variable {state : BlockState} {slots : List Slot}

/-- A `do` ends the header that is being read, or else opens a block. -/
theorem Waits.openDo (waits : state.Waits slots) (position : Position) :
    (∀ next, Slot.advance? slots (.opener .doBlock) = some next →
        (state.openBlock .doBlock position).Waits next) ∧
      (state.openBlock .doBlock position).findings = state.findings := by
  obtain ⟨stack, expected, found, extraLines, findings⟩ := state
  have opened := OpenBlock.waits_opened .doBlock position
  cases waits with
  | nil => exact ⟨fun _ advanced => Option.some.inj advanced ▸ .cons opened .nil, rfl⟩
  | cons first rest =>
      cases first with
      | header notRepeat =>
          exact ⟨fun _ advanced => Option.some.inj advanced ▸ .cons (.block notRepeat) rest, rfl⟩
      | block notRepeat =>
          exact ⟨fun _ advanced =>
            Option.some.inj advanced ▸ .cons opened (.cons (.block notRepeat) rest), rfl⟩
      | repeated =>
          exact ⟨fun _ advanced =>
            Option.some.inj advanced ▸ .cons opened (.cons .repeated rest), rfl⟩

/-- A keyword that fits changes the stack like the slots, and nothing is reported. -/
theorem Waits.step (waits : state.Waits slots) {keyword : Keyword} {next : List Slot}
    (fits : Slot.advance? slots keyword = some next) (position : Position) :
    (state.step keyword position).Waits next ∧
      (state.step keyword position).findings = state.findings := by
  cases keyword with
  | opener kind =>
      by_cases isDo : kind = .doBlock
      · subst isDo
        obtain ⟨follows, silent⟩ := waits.openDo position
        exact ⟨follows next fits, silent⟩
      · obtain ⟨stack, silent⟩ := openBlock_of_ne_do isDo state position
        rw [Slot.advance?_opener isDo] at fits
        cases fits
        refine ⟨?_, silent⟩
        rw [Waits, BlockState.step, stack]
        exact .cons (OpenBlock.waits_opened kind position) waits
  | blockEnd =>
      obtain ⟨stack, expected, found, extraLines, findings⟩ := state
      cases waits with
      | nil => cases fits
      | cons first rest =>
          cases fits
          exact ⟨rest, rfl⟩
  | loopUntil =>
      obtain ⟨stack, expected, found, extraLines, findings⟩ := state
      cases waits with
      | nil => cases fits
      | cons first rest =>
          cases first with
          | header | block => cases fits
          | repeated =>
              cases fits
              exact ⟨rest, rfl⟩

/-- A keyword that does not fit is reported. -/
theorem Waits.step_unfit (waits : state.Waits slots) {keyword : Keyword}
    (unfit : Slot.advance? slots keyword = none) (position : Position) :
    (state.step keyword position).findings ≠ [] := by
  obtain ⟨stack, expected, found, extraLines, findings⟩ := state
  cases keyword with
  | opener kind =>
      by_cases isDo : kind = .doBlock
      · subst isDo
        cases slots with
        | nil => cases unfit
        | cons slot rest => cases slot <;> cases unfit
      · rw [Slot.advance?_opener isDo] at unfit
        cases unfit
  | blockEnd =>
      cases waits with
      | nil => exact List.cons_ne_nil _ _
      | cons first rest => cases unfit
  | loopUntil =>
      cases waits with
      | nil => exact List.cons_ne_nil _ _
      | cons first rest =>
          cases first with
          | header notRepeat | block notRepeat =>
              simp [BlockState.step, closeUntil, report, notRepeat]
          | repeated => cases unfit

/-- What was reported stays so. -/
theorem findings_suffix_step (state : BlockState) (keyword : Keyword) (position : Position) :
    state.findings <:+ (state.step keyword position).findings := by
  cases keyword with
  | opener kind =>
      simp only [step, openBlock]
      split <;> exact List.suffix_refl _
  | blockEnd =>
      simp only [step, closeEnd]
      split
      · exact List.suffix_refl _
      · exact List.suffix_cons _ _
  | loopUntil =>
      simp only [step, closeUntil]
      split
      · exact List.suffix_cons _ _
      · split
        · exact List.suffix_refl _
        · exact List.suffix_cons _ _

end BlockState

theorem findings_suffix_readKeywords (state : BlockState)
    (sequence : List (Keyword × Position)) :
    state.findings <:+ (readKeywords state sequence).findings := by
  induction sequence generalizing state with
  | nil => exact List.suffix_refl _
  | cons found rest ih => exact (state.findings_suffix_step found.1 found.2).trans (ih _)

/-- Nothing is reported and nothing is left open exactly if the keywords close all slots. -/
theorem readKeywords_clean_iff {state : BlockState} {slots : List Slot}
    (waits : state.Waits slots) (sequence : List (Keyword × Position)) :
    (readKeywords state sequence).findings = [] ∧ (readKeywords state sequence).stack = [] ↔
      state.findings = [] ∧ Slot.Closes slots (sequence.map Prod.fst) := by
  induction sequence generalizing state slots with
  | nil =>
      have same : state.stack = [] ↔ slots = [] := by
        rw [← List.length_eq_zero_iff, ← List.length_eq_zero_iff, waits.length_eq]
      exact and_congr_right fun _ => same
  | cons found rest ih =>
      rw [readKeywords_cons, List.map_cons]
      cases fits : Slot.advance? slots found.1 with
      | none =>
          have reported := waits.step_unfit fits found.2
          have kept := findings_suffix_readKeywords (state.step found.1 found.2) rest
          constructor
          · rintro ⟨clean, -⟩
            rw [clean] at kept
            exact absurd (List.suffix_nil.1 kept) reported
          · rintro ⟨-, next, advanced, -⟩
            rw [fits] at advanced
            cases advanced
      | some next =>
          obtain ⟨follows, silent⟩ := waits.step fits found.2
          rw [ih follows, silent]
          simp [Slot.Closes, fits]

/-! ## Keywords in a line of code -/

/-- The letters of a keyword. -/
def Keyword.letters : Keyword → List Char
  | opener kind => kind.keyword.toList
  | blockEnd => "end".toList
  | loopUntil => "until".toList

/-- The keywords. -/
def Keyword.all : List Keyword :=
  [.opener .functionBody, .opener .conditional, .opener .forLoop, .opener .whileLoop,
    .opener .doBlock, .opener .repeatLoop, .blockEnd, .loopUntil]

/-- Whether a character may stand right before a keyword: no word goes on there and nothing is
qualified. -/
def mayPrecede (char : Char) : Bool :=
  !Text.isWord char && char != '.' && char != ':'

/-- Whether a keyword stands at a place, between the characters before it, the nearest first,
and those behind: all its letters are there, and no word goes on behind them. -/
def Keyword.standsAt (before after : List Char) (keyword : Keyword) : Bool :=
  before.head?.all mayPrecede && keyword.letters.isPrefixOf after &&
    (after.drop keyword.letters.length).head?.all (!Text.isWord ·)

/-- The keywords of a line from place to place, each with the characters before it. -/
def keywordPlaces (before : List Char) : List Char → List (Keyword × List Char)
  | [] => []
  | char :: rest =>
      ((Keyword.all.find? (·.standsAt before (char :: rest))).map (·, before)).toList ++
        keywordPlaces (char :: before) rest

/-- The keywords of a line without each `if` that is an expression, given how many such `if`
there are so far. -/
def statementKeywords (expressions : Nat) : List (Keyword × List Char) → List Keyword
  | [] => []
  | (keyword, before) :: rest =>
      if keyword = .opener .conditional ∧ isExpressionIf before expressions then
        statementKeywords (expressions + 1) rest
      else keyword :: statementKeywords expressions rest

/-- The keywords of lines of code in order, without each `if` that is an expression. -/
def codeKeywords (code : List Line) : List Keyword :=
  code.flatMap fun line => statementKeywords 0 (keywordPlaces [] line)

theorem Keyword.isWord_letters (keyword : Keyword) :
    ∀ char ∈ keyword.letters, Text.isWord char := by
  have ascii : keyword.letters.all fun char => char.toNat < 0x80 && char.isAlphanum := by
    cases keyword with
    | opener kind => cases kind <;> decide
    | blockEnd => decide
    | loopUntil => decide
  intro char member
  have := List.all_eq_true.1 ascii char member
  simp only [Bool.and_eq_true, decide_eq_true_eq] at this
  simp [Text.isWord, this]

theorem Keyword.letters_ne_nil (keyword : Keyword) : keyword.letters ≠ [] := by
  cases keyword with
  | opener kind => cases kind <;> decide
  | blockEnd => decide
  | loopUntil => decide

theorem Keyword.ofWord?_eq_find? (word : List Char) :
    ofWord? word = all.find? fun keyword => decide (word = keyword.letters) := by
  simp only [ofWord?, all, letters, BlockKind.keyword, List.find?_cons, List.find?_nil]
  repeat' split
  all_goals simp_all

/-- Characters of a word before others are the longest run of such. -/
theorem takeWhile_isWord_append {run after : List Char} (areWord : ∀ char ∈ run, Text.isWord char)
    (ends : after.head?.all (!Text.isWord ·)) : (run ++ after).takeWhile Text.isWord = run := by
  rw [List.takeWhile_append_of_pos areWord]
  cases after with
  | nil => simp
  | cons char rest => simp_all

/-- At the start of a word, a keyword stands if it is this word and nothing qualifies it. -/
theorem Keyword.standsAt_run {before run after : List Char}
    (starts : before.head?.all (!Text.isWord ·)) (areWord : ∀ char ∈ run, Text.isWord char)
    (ends : after.head?.all (!Text.isWord ·)) (keyword : Keyword) :
    keyword.standsAt before (run ++ after) =
      (!endsQualifier before && decide (run = keyword.letters)) := by
  have unqualified : before.head?.all mayPrecede = !endsQualifier before := by
    cases before with
    | nil => rfl
    | cons char rest =>
        have notWord : Text.isWord char = false := by simpa using starts
        simp [mayPrecede, endsQualifier, notWord, bne]
  rw [standsAt, unqualified, Bool.and_assoc]
  congr 1
  rw [Bool.eq_iff_iff, Bool.and_eq_true, decide_eq_true_eq, List.isPrefixOf_iff_prefix]
  constructor
  · rintro ⟨⟨rest, equal⟩, stops⟩
    rw [← equal, List.drop_left] at stops
    rw [← takeWhile_isWord_append areWord ends, ← equal,
      takeWhile_isWord_append keyword.isWord_letters stops]
  · rintro rfl
    exact ⟨List.prefix_append _ _, by rwa [List.drop_left]⟩

/-- Inside a word no keyword stands. -/
theorem keywordPlaces_inside {before run : List Char} (inside : before.head?.any Text.isWord)
    (areWord : ∀ char ∈ run, Text.isWord char) (after : List Char) :
    keywordPlaces before (run ++ after) = keywordPlaces (run.reverse ++ before) after := by
  induction run generalizing before with
  | nil => rfl
  | cons char rest ih =>
      rw [List.forall_mem_cons] at areWord
      have none : ∀ keyword : Keyword,
          keyword.standsAt before (char :: (rest ++ after)) = false := by
        intro keyword
        cases before with
        | nil => cases inside
        | cons last _ =>
            have isWord : Text.isWord last = true := by simpa using inside
            simp [Keyword.standsAt, mayPrecede, isWord]
      rw [List.cons_append, keywordPlaces, List.find?_eq_none.2 (by simp [none]), Option.map_none,
        Option.toList_none, List.nil_append, ih (by simpa using areWord.1) areWord.2,
        List.reverse_cons, List.append_assoc]
      rfl

/-- A word is passed at once, with the keyword that it is. -/
theorem keywordPlaces_run {before run after : List Char} (nonempty : run ≠ [])
    (starts : before.head?.all (!Text.isWord ·)) (areWord : ∀ char ∈ run, Text.isWord char)
    (ends : after.head?.all (!Text.isWord ·)) :
    keywordPlaces before (run ++ after) =
      ((if endsQualifier before then none else Keyword.ofWord? run).map (·, before)).toList ++
        keywordPlaces (run.reverse ++ before) after := by
  have found : Keyword.all.find? (·.standsAt before (run ++ after)) =
      if endsQualifier before then none else Keyword.ofWord? run := by
    simp only [Keyword.standsAt_run starts areWord ends, Keyword.ofWord?_eq_find?]
    cases endsQualifier before with
    | true => simp
    | false => simp
  cases run with
  | nil => exact absurd rfl nonempty
  | cons char rest =>
      rw [List.forall_mem_cons] at areWord
      have inside : keywordPlaces (char :: before) (rest ++ after) =
          keywordPlaces (rest.reverse ++ char :: before) after :=
        keywordPlaces_inside (by simpa using areWord.1) areWord.2 after
      rw [← found, List.cons_append, keywordPlaces, inside, List.reverse_cons, List.append_assoc]
      rfl

/-- No keyword starts with a character that is in no word. -/
theorem Keyword.standsAt_of_not_isWord {char : Char} (notWord : Text.isWord char = false)
    (before rest : List Char) (keyword : Keyword) :
    keyword.standsAt before (char :: rest) = false := by
  cases letters : keyword.letters with
  | nil => exact absurd letters keyword.letters_ne_nil
  | cons first others =>
      have isWord : Text.isWord first = true := keyword.isWord_letters first (by simp [letters])
      have different : first ≠ char := by
        rintro rfl
        simp [isWord] at notWord
      simp [standsAt, letters, List.isPrefixOf, different]

/-- The keyword that a word is, with the characters before it. -/
def Word.place? (word : Word) : Option (Keyword × List Char) :=
  word.keyword?.map (·, word.before)

/-- The words that are keywords stand just where keywords stand. -/
theorem filterMap_place?_wordsFrom {before chars : List Char}
    (outside : before.head?.any Text.isWord → chars.head?.all (!Text.isWord ·)) (column : Nat) :
    (wordsFrom before column chars).filterMap Word.place? = keywordPlaces before chars := by
  induction before, column, chars using wordsFrom.induct with
  | case1 before column => simp [wordsFrom, keywordPlaces]
  | case2 before column char rest isWord run ih =>
      have starts : before.head?.all (!Text.isWord ·) := by
        cases before with
        | nil => rfl
        | cons last _ =>
            by_contra inside
            have := outside (by simpa using inside)
            simp [isWord] at this
      have areWord : ∀ char ∈ run, Text.isWord char := by
        intro other member
        rcases List.mem_cons.1 member with rfl | later
        · exact isWord
        · exact (List.mem_takeWhile_imp later)
      have ends : (rest.dropWhile Text.isWord).head?.all (!Text.isWord ·) := by
        cases dropped : rest.dropWhile Text.isWord with
        | nil => rfl
        | cons next _ =>
            have := List.head_dropWhile_not Text.isWord (l := rest) (by simp [dropped])
            simpa [dropped] using this
      have split : char :: rest = run ++ rest.dropWhile Text.isWord := by
        rw [List.cons_append, List.takeWhile_append_dropWhile]
      have passed : keywordPlaces before (char :: rest) =
          (Word.place? ⟨run, before, column⟩).toList ++
            keywordPlaces (run.reverse ++ before) (rest.dropWhile Text.isWord) :=
        split ▸ keywordPlaces_run (List.cons_ne_nil _ _) starts areWord ends
      rw [wordsFrom, if_pos isWord, List.filterMap_cons, ih (fun _ => ends), passed]
      cases Word.place? ⟨run, before, column⟩ <;> rfl
  | case3 before column char rest notWord ih =>
      have never := Keyword.standsAt_of_not_isWord (Bool.eq_false_iff.2 notWord) before rest
      rw [wordsFrom, if_neg notWord, ih (by simp [notWord]), keywordPlaces,
        List.find?_eq_none.2 (by simp [never])]
      rfl

theorem map_keyword_keywordsOf (expressions : Nat) (words : List Word) :
    (keywordsOf expressions words).map KeywordAt.keyword =
      statementKeywords expressions (words.filterMap Word.place?) := by
  induction words generalizing expressions with
  | nil => rfl
  | cons word rest ih =>
      cases found : word.keyword? with
      | none => simp [keywordsOf, found, Word.place?, ih]
      | some keyword =>
          simp only [keywordsOf, found, Word.place?, List.filterMap_cons, Option.map_some,
            statementKeywords]
          split
          · exact ih _
          · rw [List.map_cons, ih]

theorem map_keyword_keywords (line : Nat) (code : List Line) :
    (keywords line code).map Prod.fst = codeKeywords code := by
  induction code generalizing line with
  | nil => rfl
  | cons chars rest ih =>
      have here : statementKeywords 0 (keywordPlaces [] chars) =
          (lineKeywords chars).map KeywordAt.keyword := by
        rw [← filterMap_place?_wordsFrom (by simp) 1, ← map_keyword_keywordsOf]
        rfl
      rw [keywords, List.map_append, List.map_map, ih, codeKeywords, codeKeywords,
        List.flatMap_cons, here]
      rfl

/-! ## Blocks of a text -/

/-- **Blocks are balanced exactly if a grammar derives their keywords.** The analysis of a text
reports nothing about its blocks if and only if the keywords of its code, without each `if`
that is an expression, are derived by the grammar of a body. -/
theorem findings_eq_nil_iff_derives (text : List Char) :
    (BlockAnalysis.ofCode (Scan.ofText text).code).findings = [] ↔
      Derives .body (codeKeywords (Scan.ofText text).code) := by
  have waits : BlockState.Waits {} [] := .nil
  rw [BlockAnalysis.ofCode, findings_ofState_eq_nil_iff, readKeywords_clean_iff waits,
    map_keyword_keywords, Slot.closes_nil_iff_derives]
  exact and_iff_right rfl

end EditGate.Lua

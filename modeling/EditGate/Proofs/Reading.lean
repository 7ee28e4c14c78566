import EditGate.Lua.Balance
import EditGate.Lua.Block
import EditGate.Proofs.Scanning
import Mathlib

/-!
# What lines contribute to the balance

Of a line, the balance of a text depends only on its reading: the block keywords, the
brackets and the long bracket that is open at its end. The reading is the same with a
carriage return behind the line, whatever the line starts in. A blank line has an empty
reading that leaves the long bracket as it is. A line `end` that starts in code reads as
that keyword; one inside a long bracket leaves the bracket open.
-/

namespace EditGate.Lua

/-! ## Lines one after the other -/

/-- What items yield one after the other, counting from `first`. -/
def byLine {α β : Type} (yield : Nat → α → List β) (first : Nat) : List α → List β
  | [] => []
  | item :: rest => yield first item ++ byLine yield (first + 1) rest

section ByLine

variable {α β : Type} (yield : Nat → α → List β)

theorem byLine_append (first : Nat) (items others : List α) :
    byLine yield first (items ++ others) =
      byLine yield first items ++ byLine yield (first + items.length) others := by
  induction items generalizing first with
  | nil => rfl
  | cons item rest ih =>
      have place : first + 1 + rest.length = first + (item :: rest).length := by
        rw [List.length_cons]
        omega
      simp only [List.cons_append, byLine, ih, place, List.append_assoc]

/-- What is yielded further down is what is yielded, moved down. -/
theorem byLine_down {count : Nat} (move : α → α) {down : β → β}
    (moves : ∀ line item, yield (line + count) (move item) = (yield line item).map down)
    (first : Nat) (items : List α) :
    byLine yield (first + count) (items.map move) = (byLine yield first items).map down := by
  induction items generalizing first with
  | nil => rfl
  | cons item rest ih =>
      have next : first + count + 1 = first + 1 + count := by omega
      rw [List.map_cons, byLine, byLine, List.map_append, moves, next, ih]

theorem mem_byLine_iff (first : Nat) (items : List α) (found : β) :
    found ∈ byLine yield first items ↔
      ∃ index item, items[index]? = some item ∧ found ∈ yield (first + index) item := by
  induction items generalizing first with
  | nil => simp [byLine]
  | cons item rest ih =>
      rw [byLine, List.mem_append, ih]
      constructor
      · rintro (here | ⟨index, other, stands, later⟩)
        · exact ⟨0, item, rfl, here⟩
        · refine ⟨index + 1, other, stands, ?_⟩
          rwa [← Nat.add_assoc, Nat.add_right_comm]
      · rintro ⟨index, other, stands, member⟩
        cases index with
        | zero =>
            obtain rfl := Option.some.inj stands
            exact .inl member
        | succ index =>
            refine .inr ⟨index, other, stands, ?_⟩
            rwa [← Nat.add_assoc, Nat.add_right_comm] at member

/-- What is yielded is in order if each item is, and each one comes before those behind it. -/
theorem pairwise_byLine {order : β → β → Prop}
    (within : ∀ line item, (yield line item).Pairwise order)
    (across : ∀ line item later other, line < later →
      ∀ found ∈ yield line item, ∀ next ∈ yield later other, order found next)
    (first : Nat) (items : List α) : (byLine yield first items).Pairwise order := by
  induction items generalizing first with
  | nil => exact .nil
  | cons item rest ih =>
      rw [byLine, List.pairwise_append]
      refine ⟨within first item, ih (first + 1), fun found here next later => ?_⟩
      obtain ⟨index, other, _, there⟩ := (mem_byLine_iff yield (first + 1) rest next).1 later
      exact across first item (first + 1 + index) other (by omega) found here next there

end ByLine

theorem brackets_eq_byLine (line : Nat) (code : List Line) :
    brackets line code = byLine (fun line chars => lineBrackets line 1 chars) line code := by
  induction code generalizing line with
  | nil => rfl
  | cons chars rest ih => rw [brackets, byLine, ih]

theorem readBrackets_append (state : BracketState) (first second : List (Bracket × Position)) :
    readBrackets state (first ++ second) = readBrackets (readBrackets state first) second :=
  List.foldl_append

theorem readBrackets_cons (state : BracketState) (found : Bracket × Position)
    (rest : List (Bracket × Position)) :
    readBrackets state (found :: rest) = readBrackets (state.step found.1 found.2) rest :=
  rfl

/-! ## The code of a line -/

namespace LineScan

@[simp]
theorem code_prepend (piece : Piece) (scan : LineScan) :
    (scan.prepend piece).code = piece.mask ++ scan.code :=
  rfl

@[simp]
theorem carry_prepend (piece : Piece) (scan : LineScan) : (scan.prepend piece).carry = scan.carry :=
  rfl

@[simp]
theorem code_prependCode (char : Char) (scan : LineScan) :
    (scan.prependCode char).code = char :: scan.code := by
  rcases scan.prependCode_cases char with ⟨chars, rest, pieces, equal⟩ | equal
  · simp [equal, code, pieces, Piece.mask]
  · simp [equal, code, Piece.mask]

@[simp]
theorem carry_prependCode (char : Char) (scan : LineScan) :
    (scan.prependCode char).carry = scan.carry := by
  rcases scan.prependCode_cases char with ⟨chars, rest, pieces, equal⟩ | equal <;> rw [equal]

/-- A scan that is like another but for blanks behind its code. -/
structure Trails (scan longer : LineScan) : Prop where
  code : ∃ blanks, (∀ char ∈ blanks, char = '\r' ∨ char = ' ') ∧ longer.code = scan.code ++ blanks
  carry : longer.carry = scan.carry

namespace Trails

variable {scan longer : LineScan}

theorem prepend (trails : scan.Trails longer) (piece : Piece) :
    (scan.prepend piece).Trails (longer.prepend piece) := by
  obtain ⟨blanks, areBlank, equal⟩ := trails.code
  exact ⟨⟨blanks, areBlank, by simp [equal]⟩, trails.carry⟩

theorem prependCode (trails : scan.Trails longer) (char : Char) :
    (scan.prependCode char).Trails (longer.prependCode char) := by
  obtain ⟨blanks, areBlank, equal⟩ := trails.code
  exact ⟨⟨blanks, areBlank, by simp [equal]⟩, by simp [trails.carry]⟩

/-- A piece that is not code is blotted out, and so is the carriage return behind it. -/
theorem of_piece {region : Region} (notCode : region ≠ .code) (chars : List Char)
    (first second : Option (Char × Nat)) (carry : Option OpenBracket) :
    Trails ⟨[⟨region, chars⟩], first, carry⟩ ⟨[⟨region, chars ++ ['\r']⟩], second, carry⟩ := by
  refine ⟨⟨[' '], by simp, ?_⟩, rfl⟩
  cases region with
  | code => exact absurd rfl notCode
  | shortString => simp [LineScan.code, Piece.mask, List.replicate_succ']
  | longBracket level isComment => simp [LineScan.code, Piece.mask, List.replicate_succ']
  | lineComment => simp [LineScan.code, Piece.mask, List.replicate_succ']

end Trails

end LineScan

/-- The characters that open a long bracket are there, so what is behind them can be cut off
before or after a carriage return is added. -/
theorem drop_append_of_long {char : Char} {rest : List Char} {level : Nat} {isComment : Bool}
    (opens : opening? (char :: rest) = some (.long level isComment)) (behind : List Char) :
    (rest ++ behind).drop (longWidth level isComment - 1) =
        rest.drop (longWidth level isComment - 1) ++ behind ∧
      (char :: rest ++ behind).take (longWidth level isComment) =
        (char :: rest).take (longWidth level isComment) := by
  have long := (opening?_eq_long_iff.1 opens).length_le
  rw [length_longOpener] at long
  constructor
  · rw [List.length_cons] at long
    exact List.drop_append_of_le_length (by omega)
  · exact List.take_append_of_le_length long

/-- A carriage return behind code adds a blank to it at most. -/
theorem trails_scanCode (line column : Nat) (chars : List Char) :
    (scanCode line column chars).Trails (scanCode line column (chars ++ ['\r'])) := by
  have opening (char : Char) (rest : List Char) :
      opening? (char :: (rest ++ ['\r'])) = opening? (char :: rest) :=
    opening?_append_cons (by decide) (List.cons_ne_nil char rest) []
  have closer (level : Nat) : '\r' ∉ longCloser level :=
    fun found => absurd (mem_longCloser found) (by decide)
  have quoted {quote : Char} {chars : List Char}
      (opens : opening? chars = some (.shortString quote)) : '\r' ≠ quote := by
    rintro rfl
    exact absurd (opening?_eq_shortString_iff.1 opens).1 (by decide)
  -- Nothing opens or closes with a carriage return, so both scans take the same branch until
  -- the shorter one has no more to read.
  induction column, chars using scanCode.induct with
  | case1 column =>
      have opens : opening? ['\r'] = none := by decide
      rw [List.nil_append, scanCode_nil, scanCode_code opens, scanCode_nil]
      exact ⟨⟨['\r'], by simp, rfl⟩, rfl⟩
  | case2 column char rest opens ih =>
      rw [List.cons_append, scanCode_code opens, scanCode_code ((opening char rest).trans opens)]
      exact ih.prependCode char
  | case3 column char rest opens =>
      rw [List.cons_append, scanCode_lineComment opens,
        scanCode_lineComment ((opening char rest).trans opens)]
      exact .of_piece (by simp) (char :: rest) none none none
  | case4 column char rest level isComment opens uncut =>
      have dropped := (drop_append_of_long opens ['\r']).1
      have still : splitAfter? (longCloser level)
          ((rest ++ ['\r']).drop (longWidth level isComment - 1)) = none := by
        rw [dropped, splitAfter?_append_singleton (closer level), uncut, Option.map_none]
      rw [List.cons_append, scanCode_long_open opens uncut,
        scanCode_long_open ((opening char rest).trans opens) still]
      exact .of_piece (by simp) (char :: rest) none none _
  | case5 column char rest level isComment opens body after cut ih =>
      obtain ⟨dropped, taken⟩ := drop_append_of_long opens ['\r']
      have still : splitAfter? (longCloser level)
          ((rest ++ ['\r']).drop (longWidth level isComment - 1)) =
            some (body, after ++ ['\r']) := by
        rw [dropped, splitAfter?_append_singleton (closer level), cut, Option.map_some]
      rw [List.cons_append, scanCode_long_closed opens cut,
        scanCode_long_closed ((opening char rest).trans opens) still, ← List.cons_append, taken]
      exact ih.prepend _
  | case6 column char rest quote opens unclosed =>
      have still : closeString? quote 0 (rest ++ ['\r']) = none := by
        rw [closeString?_append_singleton (quoted opens), unclosed, Option.map_none]
      rw [List.cons_append, scanCode_string_open opens unclosed,
        scanCode_string_open ((opening char rest).trans opens) still]
      exact .of_piece (by simp) (char :: rest) _ _ none
  | case7 column char rest quote opens body after closed ih =>
      have still : closeString? quote 0 (rest ++ ['\r']) = some (body, after ++ ['\r']) := by
        rw [closeString?_append_singleton (quoted opens), closed, Option.map_some]
      rw [List.cons_append, scanCode_string_closed opens closed,
        scanCode_string_closed ((opening char rest).trans opens) still]
      exact ih.prepend _

/-- A carriage return behind a line adds a blank to its code at most, whatever is carried
into the line. -/
theorem trails_scanLine (line : Nat) (carry : Option OpenBracket) (chars : Line) :
    (scanLine line carry chars).Trails (scanLine line carry (chars ++ ['\r'])) := by
  cases carry with
  | none => exact trails_scanCode line 1 chars
  | some bracket =>
      have closer : '\r' ∉ longCloser bracket.level :=
        fun found => absurd (mem_longCloser found) (by decide)
      simp only [scanLine, splitAfter?_append_singleton closer]
      cases splitAfter? (longCloser bracket.level) chars with
      | none =>
          cases chars with
          | nil => exact ⟨⟨[' '], by simp, rfl⟩, rfl⟩
          | cons char rest => exact .of_piece (by simp) (char :: rest) none none _
      | some pair =>
          obtain ⟨body, after⟩ := pair
          exact (trails_scanCode line (1 + body.length) after).prepend _

/-! ## Keywords and brackets of code with blanks -/

/-- A last character that fails the test is where the run ends, if not before. -/
theorem takeWhile_dropWhile_append_singleton {test : Char → Bool} {last : Char}
    (fails : test last = false) (chars : List Char) :
    (chars ++ [last]).takeWhile test = chars.takeWhile test ∧
      (chars ++ [last]).dropWhile test = chars.dropWhile test ++ [last] := by
  induction chars with
  | nil => simp [fails]
  | cons char rest ih =>
      by_cases holds : test char = true
      · simp [holds, ih]
      · simp [holds]

/-- A character that is in no word ends the last word at most. -/
theorem wordsFrom_append_singleton {last : Char} (notWord : Text.isWord last = false)
    (before : List Char) (column : Nat) (chars : List Char) :
    wordsFrom before column (chars ++ [last]) = wordsFrom before column chars := by
  induction before, column, chars using wordsFrom.induct with
  | case1 before column => simp [wordsFrom, notWord]
  | case2 before column char rest isWord run ih =>
      obtain ⟨taken, dropped⟩ := takeWhile_dropWhile_append_singleton notWord rest
      rw [List.cons_append, wordsFrom, if_pos isWord, wordsFrom, if_pos isWord, taken, dropped]
      exact congrArg (List.cons _) ih
  | case3 before column char rest notFirst ih =>
      rw [List.cons_append, wordsFrom, if_neg notFirst, ih, wordsFrom, if_neg notFirst]

theorem lineBrackets_append (line column : Nat) (first second : List Char) :
    lineBrackets line column (first ++ second) =
      lineBrackets line column first ++ lineBrackets line (column + first.length) second := by
  induction first generalizing column with
  | nil => rfl
  | cons char rest ih =>
      have place : column + 1 + rest.length = column + (char :: rest).length := by
        rw [List.length_cons]
        omega
      simp only [List.cons_append, lineBrackets, ih, place]
      split <;> rfl

/-- Blanks behind code are neither keywords nor brackets. -/
theorem lineKeywords_append_blanks {blanks : List Char}
    (areBlank : ∀ char ∈ blanks, char = '\r' ∨ char = ' ') (code : List Char) :
    lineKeywords (code ++ blanks) = lineKeywords code := by
  induction blanks generalizing code with
  | nil => rw [List.append_nil]
  | cons blank rest ih =>
      rw [List.forall_mem_cons] at areBlank
      have notWord : Text.isWord blank = false := by
        rcases areBlank.1 with rfl | rfl <;> decide
      rw [List.append_cons, ih areBlank.2, lineKeywords, words,
        wordsFrom_append_singleton notWord]
      rfl

/-- A blank is no bracket. -/
theorem ofChar?_blank {char : Char} (isBlank : Text.isBlank char = true) :
    Bracket.ofChar? char = none := by
  fun_cases Bracket.ofChar? char with
  | case7 => rfl
  | _ =>
      subst_vars
      exact absurd isBlank (by decide)

theorem lineBrackets_blank {chars : List Char} (areBlank : ∀ char ∈ chars, Text.isBlank char)
    (line column : Nat) : lineBrackets line column chars = [] := by
  induction chars generalizing column with
  | nil => rfl
  | cons char rest ih =>
      rw [List.forall_mem_cons] at areBlank
      rw [lineBrackets, ofChar?_blank areBlank.1]
      exact ih areBlank.2 (column + 1)

/-- A word is made of characters of its line. -/
theorem mem_of_mem_wordsFrom {before : List Char} {column : Nat} {chars : List Char} {word : Word}
    (found : word ∈ wordsFrom before column chars) : ∀ char ∈ word.chars, char ∈ chars := by
  induction before, column, chars using wordsFrom.induct with
  | case1 before column => simp [wordsFrom] at found
  | case2 before column char rest isWord run ih =>
      rw [wordsFrom, if_pos isWord] at found
      intro member inWord
      rcases List.mem_cons.1 found with rfl | later
      · rcases List.mem_cons.1 inWord with rfl | inRun
        · exact List.mem_cons_self
        · exact List.mem_cons_of_mem char ((List.takeWhile_sublist _).mem inRun)
      · exact List.mem_cons_of_mem char ((List.dropWhile_sublist _).mem (ih later member inWord))
  | case3 before column char rest notFirst ih =>
      rw [wordsFrom, if_neg notFirst] at found
      intro member inWord
      exact List.mem_cons_of_mem char (ih found member inWord)

/-- Blanks spell no keyword. -/
theorem ofWord?_blank {word : List Char} (areBlank : ∀ char ∈ word, Text.isBlank char) :
    Keyword.ofWord? word = none := by
  fun_cases Keyword.ofWord? word with
  | case9 => rfl
  | _ =>
      subst_vars
      simp [Text.isBlank] at areBlank

theorem lineKeywords_blank {chars : List Char} (areBlank : ∀ char ∈ chars, Text.isBlank char) :
    lineKeywords chars = [] := by
  have noKeyword : ∀ word ∈ words chars, word.keyword? = none := by
    intro word found
    have inLine := mem_of_mem_wordsFrom found
    simp only [Word.keyword?, ofWord?_blank fun char inWord => areBlank char (inLine char inWord),
      ite_self]
  have skipped : ∀ (expressions : Nat) (list : List Word),
      (∀ word ∈ list, word.keyword? = none) → keywordsOf expressions list = [] := by
    intro expressions list none
    induction list with
    | nil => rfl
    | cons word rest ih =>
        rw [List.forall_mem_cons] at none
        rw [keywordsOf, none.1]
        exact ih none.2
  exact skipped 0 (words chars) noKeyword

/-! ## Readings -/

/-- What lines contribute to the balance of a text, and the long bracket that they leave
open. -/
structure Reading where
  keywords : List (Keyword × Position)
  brackets : List (Bracket × Position)
  carry : Option OpenBracket

/-- Two readings one after the other. -/
def Reading.followedBy (first second : Reading) : Reading where
  keywords := first.keywords ++ second.keywords
  brackets := first.brackets ++ second.brackets
  carry := second.carry

/-- The reading of a line that starts inside what is carried into it. -/
def readLine (line : Nat) (carry : Option OpenBracket) (chars : Line) : Reading where
  keywords := (lineKeywords (scanLine line carry chars).code).map fun found =>
    (found.keyword, ⟨line, found.column⟩)
  brackets := lineBrackets line 1 (scanLine line carry chars).code
  carry := (scanLine line carry chars).carry

/-- The reading of lines, counting from `line`. -/
def readLines (line : Nat) (carry : Option OpenBracket) : List Line → Reading
  | [] => ⟨[], [], carry⟩
  | chars :: rest =>
      (readLine line carry chars).followedBy
        (readLines (line + 1) (readLine line carry chars).carry rest)

theorem readLines_append (line : Nat) (carry : Option OpenBracket) (first second : List Line) :
    readLines line carry (first ++ second) =
      (readLines line carry first).followedBy
        (readLines (line + first.length) (readLines line carry first).carry second) := by
  induction first generalizing line carry with
  | nil => rfl
  | cons chars rest ih =>
      simp only [List.cons_append, readLines, ih, Reading.followedBy, List.length_cons,
        List.append_assoc]
      rw [Nat.add_assoc, Nat.add_comm 1]

/-- The keywords and brackets that are balanced are those of the reading. -/
theorem readLines_eq (line : Nat) (carry : Option OpenBracket) (lines : List Line) :
    keywords line ((scanLines line carry lines).map LineScan.code) =
        (readLines line carry lines).keywords ∧
      brackets line ((scanLines line carry lines).map LineScan.code) =
        (readLines line carry lines).brackets := by
  induction lines generalizing line carry with
  | nil => exact ⟨rfl, rfl⟩
  | cons chars rest ih =>
      obtain ⟨keywordsEq, bracketsEq⟩ := ih (line + 1) (scanLine line carry chars).carry
      constructor
      · exact congrArg _ keywordsEq
      · exact congrArg _ bracketsEq

/-- The long bracket that the last line leaves open is that of the reading. -/
theorem readLines_carry (line : Nat) (carry : Option OpenBracket) {lines : List Line}
    (nonempty : lines ≠ []) :
    (scanLines line carry lines).getLast?.bind (·.carry) = (readLines line carry lines).carry := by
  induction lines generalizing line carry with
  | nil => exact absurd rfl nonempty
  | cons chars rest ih =>
      cases rest with
      | nil => rfl
      | cons second others =>
          have last := ih (line + 1) (scanLine line carry chars).carry (List.cons_ne_nil _ _)
          rw [scanLines, List.getLast?_cons_of_ne_nil (by simp [scanLines])]
          exact last

/-- The reading of a text. -/
def readText (text : List Char) : Reading :=
  readLines 1 none (Line.split text)

/-- A carriage return behind a line does not change its reading. -/
theorem readLine_append_return (line : Nat) (carry : Option OpenBracket) (chars : Line) :
    readLine line carry (chars ++ ['\r']) = readLine line carry chars := by
  have trails := trails_scanLine line carry chars
  obtain ⟨blanks, areBlank, code⟩ := trails.code
  have none : lineBrackets line (1 + (scanLine line carry chars).code.length) blanks = [] := by
    apply lineBrackets_blank
    intro char found
    rcases areBlank char found with rfl | rfl <;> rfl
  simp only [readLine, code, trails.carry, lineKeywords_append_blanks areBlank,
    lineBrackets_append, none, List.append_nil]

/-- Lines that are the same up to a carriage return behind them have the same reading. -/
theorem readLines_eq_of_forall₂ {lines others : List Line}
    (same : List.Forall₂ (fun chars other => other = chars ∨ other = chars ++ ['\r']) lines others)
    (line : Nat) (carry : Option OpenBracket) :
    readLines line carry others = readLines line carry lines := by
  induction same generalizing line carry with
  | nil => rfl
  | @cons chars other _ _ first rest ih =>
      have equal : readLine line carry other = readLine line carry chars := by
        rcases first with rfl | rfl
        · rfl
        · exact readLine_append_return line carry chars
      rw [readLines, equal, ih]
      rfl

/-! ## Blank lines and lines with a keyword alone -/

/-- No blank opens anything. -/
theorem opening?_blank {char : Char} (isBlank : Text.isBlank char = true) (rest : List Char) :
    opening? (char :: rest) = none := by
  have headIsNot {mark : Char} (notBlank : Text.isBlank mark = false) {others : List Char} :
      ¬mark :: others <+: char :: rest := by
    intro start
    rw [(List.cons_prefix_cons.1 start).1, isBlank] at notBlank
    cases notBlank
  cases opens : opening? (char :: rest) with
  | none => rfl
  | some opening =>
      exfalso
      cases opening with
      | lineComment => exact headIsNot (by decide) (opening?_eq_lineComment_iff.1 opens).1
      | long level isComment =>
          cases isComment with
          | false => exact headIsNot (by decide) (opening?_eq_long_iff.1 opens)
          | true => exact headIsNot (by decide) (opening?_eq_long_iff.1 opens)
      | shortString quote =>
          obtain ⟨rfl | rfl, start⟩ := opening?_eq_shortString_iff.1 opens
          · exact headIsNot (by decide) start
          · exact headIsNot (by decide) start

theorem scanCode_blank {chars : List Char} (areBlank : ∀ char ∈ chars, Text.isBlank char)
    (line column : Nat) :
    (scanCode line column chars).code = chars ∧ (scanCode line column chars).carry = none := by
  induction chars generalizing column with
  | nil => simp [scanCode_nil, LineScan.code]
  | cons char rest ih =>
      rw [List.forall_mem_cons] at areBlank
      rw [scanCode_code (opening?_blank areBlank.1 rest)]
      simpa using ih areBlank.2 (column + 1)

/-- Without one of the characters of a closer there is no closer. -/
theorem splitAfter?_eq_none {pattern chars : List Char} {char : Char} (needed : char ∈ pattern)
    (absent : char ∉ chars) : splitAfter? pattern chars = none := by
  induction chars with
  | nil => simp [splitAfter?, List.ne_nil_of_mem needed]
  | cons first rest ih =>
      have unmatched : pattern.isPrefixOf (first :: rest) = false := by
        rw [Bool.eq_false_iff, ne_eq, List.isPrefixOf_iff_prefix]
        exact fun start => absent (start.subset needed)
      rw [splitAfter?, unmatched, ih fun found => absent (List.mem_cons_of_mem first found)]
      rfl

/-- Without a square bracket a line does not leave the long bracket that it starts in, and
none of it is code. -/
theorem scanLine_inside (line : Nat) (bracket : OpenBracket) {chars : Line}
    (absent : ']' ∉ chars) :
    (scanLine line (some bracket) chars).code = List.replicate chars.length ' ' ∧
      (scanLine line (some bracket) chars).carry = some bracket := by
  have uncut : splitAfter? (longCloser bracket.level) chars = none :=
    splitAfter?_eq_none (by simp [longCloser]) absent
  cases chars with
  | nil => simp [scanLine, uncut, LineScan.code]
  | cons char rest => simp [scanLine, uncut, LineScan.code, Piece.mask]

/-- A line of blanks only. -/
def IsBlankLine (chars : Line) : Prop :=
  ∀ char ∈ chars, Text.isBlank char

/-- A line whose code is blank has an empty reading. -/
theorem readLine_of_blank_code {line : Nat} {carry : Option OpenBracket} {chars : Line}
    (blank : IsBlankLine (scanLine line carry chars).code) :
    readLine line carry chars = ⟨[], [], (scanLine line carry chars).carry⟩ := by
  simp only [readLine, lineKeywords_blank blank, lineBrackets_blank blank, List.map_nil]

/-- Inside a long bracket a line without a square bracket has an empty reading. -/
theorem readLine_inside (line : Nat) (bracket : OpenBracket) {chars : Line}
    (absent : ']' ∉ chars) : readLine line (some bracket) chars = ⟨[], [], some bracket⟩ := by
  obtain ⟨code, carry⟩ := scanLine_inside line bracket absent
  rw [readLine_of_blank_code, carry]
  intro char found
  rw [code] at found
  rw [List.eq_of_mem_replicate found]
  rfl

theorem readLine_blank (line : Nat) (carry : Option OpenBracket) {chars : Line}
    (blank : IsBlankLine chars) : readLine line carry chars = ⟨[], [], carry⟩ := by
  cases carry with
  | none =>
      obtain ⟨code, carry⟩ := scanCode_blank blank line 1
      have same : (scanLine line none chars).code = chars := code
      rw [readLine_of_blank_code (same.symm ▸ blank)]
      exact congrArg _ carry
  | some bracket =>
      apply readLine_inside
      exact fun found => absurd (blank ']' found) (by decide)

theorem readLines_blank (line : Nat) (carry : Option OpenBracket) {lines : List Line}
    (blank : ∀ chars ∈ lines, IsBlankLine chars) :
    readLines line carry lines = ⟨[], [], carry⟩ := by
  induction lines generalizing line with
  | nil => rfl
  | cons chars rest ih =>
      rw [List.forall_mem_cons] at blank
      rw [readLines, readLine_blank line carry blank.1, ih (line + 1) blank.2]
      rfl

/-- Blank lines behind others are not read. -/
theorem readLines_append_blank (line : Nat) (carry : Option OpenBracket) (lines : List Line)
    {blanks : List Line} (blank : ∀ chars ∈ blanks, IsBlankLine chars) :
    readLines line carry (lines ++ blanks) = readLines line carry lines := by
  rw [readLines_append, readLines_blank _ _ blank]
  simp [Reading.followedBy]

/-- A line with the keyword `end` alone. -/
theorem readLine_end (line : Nat) :
    readLine line none "end".toList = ⟨[(.blockEnd, ⟨line, 1⟩)], [], none⟩ := by
  have spelled : "end".toList = ['e', 'n', 'd'] := by decide
  have keyword : lineKeywords ['e', 'n', 'd'] = [⟨.blockEnd, 1⟩] := by
    have letters : Text.isWord 'e' ∧ Text.isWord 'n' ∧ Text.isWord 'd' := by decide
    have known : Keyword.ofWord? ['e', 'n', 'd'] = some .blockEnd := by decide
    simp [lineKeywords, words, wordsFrom, letters, keywordsOf, Word.keyword?, Word.isQualified,
      endsQualifier, known]
  have scan : scanLine line none ['e', 'n', 'd'] = ⟨[⟨.code, ['e', 'n', 'd']⟩], none, none⟩ := by
    rw [scanLine, scanCode_code (by decide), scanCode_code (by decide), scanCode_code (by decide),
      scanCode_nil]
    rfl
  have code : (scanLine line none ['e', 'n', 'd']).code = ['e', 'n', 'd'] := by
    rw [scan]
    rfl
  rw [spelled, readLine, code, keyword, scan]
  rfl

theorem readLines_ends (line count : Nat) :
    readLines line none (List.replicate count "end".toList) =
      ⟨((List.range' line count).map fun line => ⟨line, 1⟩).map fun position =>
          (.blockEnd, position), [], none⟩ := by
  induction count generalizing line with
  | zero => rfl
  | succ count ih =>
      rw [List.replicate_succ, readLines, readLine_end, ih]
      rfl

/-- Inside a long bracket a line `end` is not code. -/
theorem readLines_ends_inside (line count : Nat) (bracket : OpenBracket) :
    readLines line (some bracket) (List.replicate count "end".toList) =
      ⟨[], [], some bracket⟩ := by
  induction count generalizing line with
  | zero => rfl
  | succ count ih =>
      rw [List.replicate_succ, readLines, readLine_inside line bracket (by decide), ih]
      rfl

end EditGate.Lua

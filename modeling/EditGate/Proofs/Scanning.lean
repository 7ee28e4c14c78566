import EditGate.Lua.Region
import Mathlib

/-!
# Laws of the scanner

What opens in front of a rest of code is settled by the marks it starts with: a long
bracket by its whole opener, a comment by two hyphens without such an opener behind them,
a short string by its quote. The three searches of the scanner look for marks that no
character from a later place can complete, so they do not look past a character that is in
none of the marks.
-/

namespace EditGate.Lua

/-! ## Marks in front -/

/-- The characters that open a long bracket. -/
def longOpener (level : Nat) (isComment : Bool) : List Char :=
  (if isComment then ['-', '-'] else []) ++ '[' :: (List.replicate level '=' ++ ['['])

@[simp]
theorem length_longOpener (level : Nat) (isComment : Bool) :
    (longOpener level isComment).length = longWidth level isComment := by
  cases isComment <;> simp [longOpener, longWidth]

theorem takeWhile_equals_eq_replicate (chars : List Char) :
    chars.takeWhile (· == '=') = List.replicate (chars.takeWhile (· == '=')).length '=' := by
  rw [List.eq_replicate_iff]
  refine ⟨rfl, fun char found => ?_⟩
  simpa using List.mem_takeWhile_imp found

/-- A level is read exactly off an opener of that level. -/
theorem longLevel?_eq_some_iff {chars : List Char} {level : Nat} :
    longLevel? chars = some level ↔ longOpener level false <+: chars := by
  constructor
  · intro found
    fun_cases longLevel? chars with
    | case1 rest tail behind =>
        simp only [longLevel?, behind, Option.some.injEq] at found
        refine ⟨tail, ?_⟩
        have whole := List.takeWhile_append_dropWhile (p := (· == '=')) (l := rest)
        rw [takeWhile_equals_eq_replicate, found, behind] at whole
        simp [longOpener, ← whole]
    | case2 rest _ => simp [longLevel?] at found
    | case3 => simp [longLevel?] at found
  · rintro ⟨tail, rfl⟩
    simp [longLevel?, longOpener]

theorem longOpener_true (level : Nat) :
    longOpener level true = '-' :: '-' :: longOpener level false :=
  rfl

theorem longOpener_false (level : Nat) :
    longOpener level false = '[' :: (List.replicate level '=' ++ ['[']) :=
  rfl

/-- Where neither two hyphens nor a square bracket stand, there is no opener. -/
theorem not_longOpener_isPrefix {char : Char} {rest : List Char} (level : Nat) (isComment : Bool)
    (notDashes : ∀ tail, char = '-' → rest = '-' :: tail → False) (notSquare : char = '[' → False) :
    ¬longOpener level isComment <+: char :: rest := by
  rintro ⟨tail, equal⟩
  cases isComment with
  | false => exact notSquare (List.cons.inj equal).1.symm
  | true =>
      obtain ⟨first, others⟩ := List.cons.inj equal
      exact notDashes _ first.symm others.symm

/-- A long bracket opens exactly where its opener stands. -/
theorem opening?_eq_long_iff {chars : List Char} {level : Nat} {isComment : Bool} :
    opening? chars = some (.long level isComment) ↔ longOpener level isComment <+: chars := by
  fun_cases opening? chars with
  | case1 rest inner found =>
      cases isComment with
      | false => simp [longOpener_false]
      | true => simp [longOpener_true, ← longLevel?_eq_some_iff, found]
  | case2 rest missing =>
      cases isComment with
      | false => simp [longOpener_false]
      | true => simp [longOpener_true, ← longLevel?_eq_some_iff, missing]
  | case3 rest =>
      cases isComment with
      | false => simp [← longLevel?_eq_some_iff]
      | true => simp [longOpener_true]
  | case4 char tail notDashes notSquare isQuote =>
      simp [not_longOpener_isPrefix level isComment notDashes notSquare]
  | case5 char tail notDashes notSquare notQuote =>
      simp [not_longOpener_isPrefix level isComment notDashes notSquare]
  | case6 => simp [longOpener]

/-- A comment to the end of the line opens where two hyphens stand that open no long bracket. -/
theorem opening?_eq_lineComment_iff {chars : List Char} :
    opening? chars = some .lineComment ↔
      ['-', '-'] <+: chars ∧ ∀ level, ¬longOpener level true <+: chars := by
  fun_cases opening? chars with
  | case1 rest inner found =>
      have opener := longLevel?_eq_some_iff.1 found
      simp only [Option.some.injEq, reduceCtorEq, false_iff, not_and, not_forall, not_not]
      exact fun _ => ⟨inner, by simpa [longOpener_true] using opener⟩
  | case2 rest missing =>
      simp [longOpener_true, ← longLevel?_eq_some_iff, missing]
  | case3 rest => simp
  | case4 char tail notDashes notSquare isQuote =>
      simp only [Option.some.injEq, reduceCtorEq, false_iff, not_and]
      rintro ⟨rest, equal⟩
      obtain ⟨first, others⟩ := List.cons.inj equal
      exact absurd others.symm (notDashes rest first.symm)
  | case5 char tail notDashes notSquare notQuote =>
      simp only [reduceCtorEq, false_iff, not_and]
      rintro ⟨rest, equal⟩
      obtain ⟨first, others⟩ := List.cons.inj equal
      exact absurd others.symm (notDashes rest first.symm)
  | case6 => simp

/-- A short string opens exactly where a quote stands. -/
theorem opening?_eq_shortString_iff {chars : List Char} {quote : Char} :
    opening? chars = some (.shortString quote) ↔
      (quote = '"' ∨ quote = '\'') ∧ [quote] <+: chars := by
  fun_cases opening? chars with
  | case1 rest inner found =>
      simp only [Option.some.injEq, reduceCtorEq, false_iff, not_and]
      rintro (rfl | rfl) <;> simp
  | case2 rest missing =>
      simp only [Option.some.injEq, reduceCtorEq, false_iff, not_and]
      rintro (rfl | rfl) <;> simp
  | case3 rest =>
      constructor
      · intro found
        obtain ⟨_, _, impossible⟩ := Option.map_eq_some_iff.1 found
        cases impossible
      · rintro ⟨rfl | rfl, start⟩ <;> simp at start
  | case4 char tail notDashes notSquare isQuote =>
      simp only [Option.some.injEq, Opening.shortString.injEq, List.cons_prefix_cons,
        List.nil_prefix, and_true]
      constructor
      · rintro rfl
        exact ⟨isQuote, rfl⟩
      · rintro ⟨_, same⟩
        exact same.symm
  | case5 char tail notDashes notSquare notQuote =>
      simp only [reduceCtorEq, List.cons_prefix_cons, List.nil_prefix, and_true, false_iff]
      rintro ⟨isQuote, rfl⟩
      exact notQuote isQuote
  | case6 => simp

/-! ## Searches do not look past a foreign character -/

/-- A character that is not in a pattern completes no occurrence of it. -/
theorem prefix_append_cons_iff {pattern : List Char} {foreign : Char} (absent : foreign ∉ pattern)
    (chars rest : List Char) : pattern <+: chars ++ foreign :: rest ↔ pattern <+: chars := by
  induction pattern generalizing chars with
  | nil => simp
  | cons first others ih =>
      rw [List.mem_cons, not_or] at absent
      cases chars with
      | nil => simp [Ne.symm absent.1]
      | cons char chars => simp [ih absent.2]

theorem isPrefixOf_append_cons {pattern : List Char} {foreign : Char} (absent : foreign ∉ pattern)
    (chars rest : List Char) :
    pattern.isPrefixOf (chars ++ foreign :: rest) = pattern.isPrefixOf chars := by
  rw [Bool.eq_iff_iff, List.isPrefixOf_iff_prefix, List.isPrefixOf_iff_prefix]
  exact prefix_append_cons_iff absent chars rest

theorem mem_longOpener {level : Nat} {isComment : Bool} {char : Char}
    (found : char ∈ longOpener level isComment) : char ∈ ['-', '[', '='] := by
  cases isComment <;> simp [longOpener] at found ⊢ <;> tauto

theorem mem_longCloser {level : Nat} {char : Char} (found : char ∈ longCloser level) :
    char ∈ [']', '='] := by
  simp [longCloser] at found ⊢
  tauto

/-- What opens in front of a line does not depend on what follows the line. -/
theorem opening?_append_cons {foreign : Char} (absent : foreign ∉ ['-', '[', '='])
    {chars : List Char} (nonempty : chars ≠ []) (rest : List Char) :
    opening? (chars ++ foreign :: rest) = opening? chars := by
  have openers : ∀ level isComment,
      longOpener level isComment <+: chars ++ foreign :: rest ↔
        longOpener level isComment <+: chars := by
    intro level isComment
    exact prefix_append_cons_iff (fun found => absent (mem_longOpener found)) chars rest
  refine Option.ext fun opening => ?_
  cases opening with
  | lineComment =>
      have dashes : foreign ∉ ['-', '-'] := fun found => absent (by simp_all)
      simp only [opening?_eq_lineComment_iff, openers, prefix_append_cons_iff dashes]
  | long level isComment => simp only [opening?_eq_long_iff, openers]
  | shortString quote =>
      obtain ⟨char, others, rfl⟩ := List.exists_cons_of_ne_nil nonempty
      simp only [opening?_eq_shortString_iff, List.cons_append, List.cons_prefix_cons,
        List.nil_prefix]

/-- The search for a closer goes on behind a character that is not in it. -/
theorem splitAfter?_append_singleton {pattern : List Char} {foreign : Char}
    (absent : foreign ∉ pattern) (chars : List Char) :
    splitAfter? pattern (chars ++ [foreign]) =
      (splitAfter? pattern chars).map fun (taken, after) => (taken, after ++ [foreign]) := by
  induction chars with
  | nil =>
      cases pattern with
      | nil => simp [splitAfter?]
      | cons first others =>
          have different : first ≠ foreign := fun same => absent (by simp [same])
          simp [splitAfter?, different]
  | cons char rest ih =>
      simp only [List.cons_append, splitAfter?]
      rw [← List.cons_append, isPrefixOf_append_cons absent, ih]
      split
      next found =>
          have short := (List.isPrefixOf_iff_prefix.1 found).length_le
          rw [List.drop_append_of_le_length short, Option.map_some]
      next => simp only [Option.map_map, Function.comp_def]

/-- The search for a quote goes on behind a character that is not the quote. -/
theorem closeString?_append_singleton {quote foreign : Char} (different : foreign ≠ quote)
    (slashes : Nat) (chars : List Char) :
    closeString? quote slashes (chars ++ [foreign]) =
      (closeString? quote slashes chars).map fun (taken, after) => (taken, after ++ [foreign]) := by
  induction chars generalizing slashes with
  | nil => simp [closeString?, different]
  | cons char rest ih =>
      simp only [List.cons_append, closeString?, ih]
      split
      · rfl
      · simp only [Option.map_map, Function.comp_def]

/-- What is found is the front of what was searched. -/
theorem eq_append_of_splitAfter? {pattern chars taken after : List Char}
    (found : splitAfter? pattern chars = some (taken, after)) : chars = taken ++ after := by
  induction chars generalizing taken with
  | nil =>
      rw [splitAfter?] at found
      split at found
      · cases found
        rfl
      · cases found
  | cons char rest ih =>
      rw [splitAfter?] at found
      split at found
      next matched =>
        obtain ⟨others, whole⟩ := List.isPrefixOf_iff_prefix.1 matched
        rw [← whole, List.drop_left] at found
        cases found
        exact whole.symm
      next =>
        obtain ⟨⟨front, others⟩, later, equal⟩ := Option.map_eq_some_iff.1 found
        cases equal
        rw [ih later, List.cons_append]

theorem eq_append_of_closeString? {quote : Char} {slashes : Nat} {chars taken after : List Char}
    (found : closeString? quote slashes chars = some (taken, after)) :
    chars = taken ++ after := by
  induction chars generalizing slashes taken with
  | nil => cases found
  | cons char rest ih =>
      rw [closeString?] at found
      split at found
      · cases found
        rfl
      · obtain ⟨⟨front, others⟩, later, equal⟩ := Option.map_eq_some_iff.1 found
        cases equal
        rw [ih later, List.cons_append]

/-! ## The ways through code -/

/-- A character of code goes into the first piece, or becomes a piece of its own. -/
theorem LineScan.prependCode_cases (char : Char) (scan : LineScan) :
    (∃ chars rest, scan.pieces = ⟨.code, chars⟩ :: rest ∧
        scan.prependCode char = { scan with pieces := ⟨.code, char :: chars⟩ :: rest }) ∨
      scan.prependCode char = { scan with pieces := ⟨.code, [char]⟩ :: scan.pieces } := by
  fun_cases prependCode with
  | case1 chars rest pieces => exact Or.inl ⟨chars, rest, pieces, rfl⟩
  | case2 => exact Or.inr rfl

section Code

variable {line column : Nat} {char : Char} {rest : List Char}

theorem scanCode_nil : scanCode line column [] = ⟨[], none, none⟩ := by
  rw [scanCode]

theorem scanCode_code (opens : opening? (char :: rest) = none) :
    scanCode line column (char :: rest) =
      (scanCode line (column + 1) rest).prependCode char := by
  rw [scanCode, opens]

theorem scanCode_lineComment (opens : opening? (char :: rest) = some .lineComment) :
    scanCode line column (char :: rest) = ⟨[⟨.lineComment, char :: rest⟩], none, none⟩ := by
  rw [scanCode, opens]

theorem scanCode_long_open {level : Nat} {isComment : Bool}
    (opens : opening? (char :: rest) = some (.long level isComment))
    (uncut : splitAfter? (longCloser level) (rest.drop (longWidth level isComment - 1)) = none) :
    scanCode line column (char :: rest) =
      ⟨[⟨.longBracket level isComment, char :: rest⟩], none,
        some ⟨level, isComment, ⟨line, column⟩⟩⟩ := by
  rw [scanCode, opens]
  simp only
  split
  · rfl
  · simp_all

theorem scanCode_long_closed {level : Nat} {isComment : Bool} {body after : List Char}
    (opens : opening? (char :: rest) = some (.long level isComment))
    (cut : splitAfter? (longCloser level) (rest.drop (longWidth level isComment - 1)) =
      some (body, after)) :
    scanCode line column (char :: rest) =
      (scanCode line (column + longWidth level isComment + body.length) after).prepend
        ⟨.longBracket level isComment,
          (char :: rest).take (longWidth level isComment) ++ body⟩ := by
  rw [scanCode, opens]
  simp only
  split
  · simp_all
  · simp_all

theorem scanCode_string_open {quote : Char}
    (opens : opening? (char :: rest) = some (.shortString quote))
    (unclosed : closeString? quote 0 rest = none) :
    scanCode line column (char :: rest) =
      ⟨[⟨.shortString, char :: rest⟩], some (quote, column), none⟩ := by
  rw [scanCode, opens]
  simp only
  split
  · rfl
  · simp_all

theorem scanCode_string_closed {quote : Char} {body after : List Char}
    (opens : opening? (char :: rest) = some (.shortString quote))
    (closed : closeString? quote 0 rest = some (body, after)) :
    scanCode line column (char :: rest) =
      (scanCode line (column + 1 + body.length) after).prepend ⟨.shortString, char :: body⟩ := by
  rw [scanCode, opens]
  simp only
  split
  · simp_all
  · simp_all

end Code

/-! ## What is reported -/

/-- A string that is cut off is reported as it is found, not escalated. -/
theorem exists_of_mem_openStrings {line : Nat} {scans : List LineScan} {finding : Finding}
    (found : finding ∈ openStrings line scans) :
    ∃ quote position, finding = { cause := .openString quote, position } := by
  induction scans generalizing line with
  | nil => cases found
  | cons scan rest ih =>
      rw [openStrings, List.mem_append] at found
      rcases found with here | later
      · split at here
        · exact ⟨_, _, List.mem_singleton.1 here⟩
        · cases here
      · exact ih later

end EditGate.Lua

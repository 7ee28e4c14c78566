import EditGate.Proofs.Buffer
import EditGate.Proofs.Scanning
import Mathlib

/-!
# The scanner as an automaton

An automaton reads a text character by character. It is in code, in a short string, in a
long bracket or in a comment up to the end of the line, and every line starts in code
unless a long bracket is open. A mark of several characters, the opener or the closer of a
long bracket, is recognised where it starts and then read to its end.

The scanner works differently: it looks ahead for the end of whatever opens, and counts the
backslashes before a quote. Both give every character the same region and report the same
strings and long brackets as left open.
-/

namespace EditGate.Lua

/-- The place and the region of a character. Columns are counted from zero. -/
structure Cell where
  line : Nat
  column : Nat
  region : Region
deriving DecidableEq, Repr

/-- The cells of neighbouring characters of one region. -/
def Cell.run (line column count : Nat) (region : Region) : List Cell :=
  (List.range' column count).map fun column => ⟨line, column, region⟩

/-- The characters that a span covers. -/
def Span.cells (span : Span) : List Cell :=
  Cell.run span.line span.start (span.stop - span.start) span.region

namespace Automaton

/-! ## The automaton -/

/-- What the automaton is in. A string and a long bracket remember where they opened. -/
inductive Mode where
  | code
  | short (quote : Char) (escaped : Bool) (opened : Position)
  | long (level : Nat) (isComment : Bool) (opened : Position)
  | lineComment
deriving DecidableEq, Repr

/-- The region of the characters that are read in a mode. -/
def Mode.region : Mode → Region
  | code => .code
  | short _ _ _ => .shortString
  | long level isComment _ => .longBracket level isComment
  | lineComment => .lineComment

/-- A state of the automaton. -/
structure State where
  line : Nat
  /-- How many characters of the line were read. -/
  column : Nat
  mode : Mode
  /-- Inside a mark, how many characters follow before its last one, and the mode behind it. -/
  mark : Option (Nat × Mode)
deriving DecidableEq, Repr

/-- The level of the long bracket whose opener stands in front, and whether it is a comment. -/
def opener? (ahead : List Char) : Option (Nat × Bool) :=
  (List.range ahead.length).findSome? fun level =>
    [true, false].findSome? fun isComment =>
      if longOpener level isComment <+: ahead then some (level, isComment) else none

/-- The mode, and the rest of a mark, after a character of code. -/
def enter (position : Position) (ahead : List Char) : Mode × Option (Nat × Mode) :=
  match opener? ahead with
  | some (level, isComment) =>
      (.long level isComment position,
        some ((longOpener level isComment).length - 2, .long level isComment position))
  | none =>
      if ['-', '-'] <+: ahead then (.lineComment, none)
      else if ['"'] <+: ahead then (.short '"' false position, none)
      else if ['\''] <+: ahead then (.short '\'' false position, none)
      else (.code, none)

/-- The mode, and the rest of a mark, after the character in front of `ahead`. -/
def next (position : Position) (mode : Mode) (ahead : List Char) : Mode × Option (Nat × Mode) :=
  match mode with
  | .code => enter position ahead
  | .short quote true opened => (.short quote false opened, none)
  | .short quote false opened =>
      if ['\\'] <+: ahead then (.short quote true opened, none)
      else if [quote] <+: ahead then (.code, none)
      else (.short quote false opened, none)
  | .long level isComment opened =>
      if longCloser level <+: ahead then (.long level isComment opened, some (level, .code))
      else (.long level isComment opened, none)
  | .lineComment => (.lineComment, none)

namespace State

/-- Reads the character in front of `ahead`. -/
def read (state : State) (ahead : List Char) : State :=
  let after := match state.mark with
    | some (0, mode) => (mode, none)
    | some (left + 1, mode) => (state.mode, some (left, mode))
    | none => next ⟨state.line, state.column + 1⟩ state.mode ahead
  ⟨state.line, state.column + 1, after.1, after.2⟩

/-- The cell of the character in front of `ahead`. What leaves code is not code any more, and
what leads back to code is not code yet. -/
def cell (state : State) (ahead : List Char) : Cell where
  line := state.line
  column := state.column
  region := if state.mode = .code then (state.read ahead).mode.region else state.mode.region

/-- Goes on to the next line. -/
def breakLine (state : State) : State where
  line := state.line + 1
  column := 0
  mode := match state.mode with
    | .long level isComment opened => .long level isComment opened
    | _ => .code
  mark := none

/-- The string that the end of a line cuts off, as it is reported. -/
def cutOff (state : State) : List Finding :=
  match state.mode with
  | .short quote _ opened => [{ cause := .openString quote, position := opened }]
  | _ => []

/-- The long bracket that the end of the text leaves open, as it is reported. -/
def leftOpen (state : State) : List Finding :=
  match state.mode with
  | .long level isComment opened =>
      [{ cause := .openLongBracket level isComment, position := opened }]
  | _ => []

end State

/-- What a run of the automaton shows: the cells of the characters, the strings that are cut
off by the ends of their lines, and the last state. -/
structure Trace where
  cells : List Cell
  cutOff : List Finding
  last : State

/-- Runs the automaton over a text. -/
def trace (state : State) : List Char → Trace
  | [] => ⟨[], state.cutOff, state⟩
  | char :: rest =>
      if char = '\n' then
        let later := trace state.breakLine rest
        { later with cutOff := state.cutOff ++ later.cutOff }
      else
        let later := trace (state.read (char :: rest)) rest
        { later with cells := state.cell (char :: rest) :: later.cells }

/-- The run over a whole text, which starts in code. -/
def traceOf (text : List Char) : Trace :=
  trace ⟨1, 0, .code, none⟩ text

/-! ## Leaving code -/

theorem opener?_eq_some_iff {ahead : List Char} {level : Nat} {isComment : Bool} :
    opener? ahead = some (level, isComment) ↔ longOpener level isComment <+: ahead := by
  have sound {level : Nat} {isComment : Bool} (found : opener? ahead = some (level, isComment)) :
      longOpener level isComment <+: ahead := by
    obtain ⟨tried, -, hit⟩ := List.exists_of_findSome?_eq_some found
    obtain ⟨kind, -, matched⟩ := List.exists_of_findSome?_eq_some hit
    split at matched
    next start =>
      cases matched
      exact start
    next => cases matched
  refine ⟨sound, fun start => ?_⟩
  cases found : opener? ahead with
  | none =>
      exfalso
      have short := start.length_le
      rw [length_longOpener, longWidth] at short
      have missed := List.findSome?_eq_none_iff.1 found level (List.mem_range.2 (by omega))
      have miss := List.findSome?_eq_none_iff.1 missed isComment (by cases isComment <;> simp)
      simp [start] at miss
  | some pair =>
      -- Only one opener can stand at a place, since only one thing opens there.
      have first := opening?_eq_long_iff.2 (sound found)
      have second := opening?_eq_long_iff.2 start
      rw [first] at second
      cases second
      rfl

/-- The mode, and the rest of a mark, behind the first character of what opens. -/
def entered (position : Position) : Option Opening → Mode × Option (Nat × Mode)
  | none => (.code, none)
  | some .lineComment => (.lineComment, none)
  | some (.long level isComment) =>
      (.long level isComment position,
        some (longWidth level isComment - 2, .long level isComment position))
  | some (.shortString quote) => (.short quote false position, none)

/-- The automaton leaves code where the scanner sees something open. -/
theorem enter_eq (position : Position) (ahead : List Char) :
    enter position ahead = entered position (opening? ahead) := by
  unfold enter
  cases found : opener? ahead with
  | some pair =>
      rw [opening?_eq_long_iff.2 (opener?_eq_some_iff.1 found)]
      simp only [entered, length_longOpener]
  | none =>
      have noOpener (level : Nat) (isComment : Bool) : ¬longOpener level isComment <+: ahead := by
        rw [← opener?_eq_some_iff, found]
        simp
      simp only
      split
      next dashes =>
        rw [opening?_eq_lineComment_iff.2 ⟨dashes, fun level => noOpener level true⟩, entered]
      next noDashes =>
        split
        next quoted => rw [opening?_eq_shortString_iff.2 ⟨Or.inl rfl, quoted⟩, entered]
        next notDouble =>
          split
          next quoted => rw [opening?_eq_shortString_iff.2 ⟨Or.inr rfl, quoted⟩, entered]
          next notSingle =>
            cases opens : opening? ahead with
            | none => rfl
            | some opening =>
                exfalso
                cases opening with
                | lineComment => exact noDashes (opening?_eq_lineComment_iff.1 opens).1
                | long level isComment =>
                    exact noOpener level isComment (opening?_eq_long_iff.1 opens)
                | shortString quote =>
                    obtain ⟨rfl | rfl, start⟩ := opening?_eq_shortString_iff.1 opens
                    · exact notDouble start
                    · exact notSingle start

/-! ## Reading one character -/

section EndsLine

variable {behind : List Char}

/-- What may follow the rest of a line. -/
def EndsLine (behind : List Char) : Prop :=
  behind = [] ∨ ∃ rest, behind = '\n' :: rest

/-- No mark reaches over the end of a line. -/
theorem prefix_append_iff (endsLine : EndsLine behind) {pattern : List Char}
    (absent : '\n' ∉ pattern) (chars : List Char) :
    pattern <+: chars ++ behind ↔ pattern <+: chars := by
  rcases endsLine with rfl | ⟨rest, rfl⟩
  · rw [List.append_nil]
  · exact prefix_append_cons_iff absent chars rest

/-- What opens does not depend on what follows the line. -/
theorem opening?_append (endsLine : EndsLine behind) (char : Char) (rest : List Char) :
    opening? (char :: (rest ++ behind)) = opening? (char :: rest) := by
  rcases endsLine with rfl | ⟨others, rfl⟩
  · rw [List.append_nil]
  · exact opening?_append_cons (by decide) (List.cons_ne_nil char rest) others

end EndsLine

namespace State

variable {line column : Nat} {char : Char} {rest behind : List Char}

/-- A character that does not end the string leaves it escaped exactly if the backslashes
before the next one are odd in number. -/
theorem read_short {quote : Char} {slashes : Nat} {opened : Position}
    (goesOn : ¬(char = quote ∧ slashes % 2 = 0)) :
    (⟨line, column, .short quote (slashes % 2 = 1) opened, none⟩ : State).read (char :: rest) =
      ⟨line, column + 1,
        .short quote ((if char = '\\' then slashes + 1 else 0) % 2 = 1) opened, none⟩ := by
  rcases Nat.mod_two_eq_zero_or_one slashes with even | odd
  · by_cases isSlash : char = '\\'
    · subst isSlash
      have next : (slashes + 1) % 2 = 1 := by omega
      simp [read, Automaton.next, even, next]
    · have different : quote ≠ char := fun same => goesOn ⟨same.symm, even⟩
      simp [read, Automaton.next, even, isSlash, Ne.symm isSlash, different]
  · by_cases isSlash : char = '\\'
    · have next : (slashes + 1) % 2 = 0 := by omega
      simp [read, Automaton.next, odd, isSlash, next]
    · simp [read, Automaton.next, odd, isSlash]

/-- A character that starts no closer leaves the long bracket open. -/
theorem read_long (endsLine : EndsLine behind) {level : Nat} {isComment : Bool}
    {opened : Position}
    (goesOn : (longCloser level).isPrefixOf (char :: rest) = false) :
    (⟨line, column, .long level isComment opened, none⟩ : State).read (char :: (rest ++ behind)) =
      ⟨line, column + 1, .long level isComment opened, none⟩ := by
  have absent : '\n' ∉ longCloser level := fun found => absurd (mem_longCloser found) (by decide)
  have unmatched : ¬longCloser level <+: char :: (rest ++ behind) := by
    rw [← List.cons_append, prefix_append_iff endsLine absent, ← List.isPrefixOf_iff_prefix, goesOn]
    exact Bool.false_ne_true
  simp [read, Automaton.next, unmatched]

/-- Reading the first character of what opens. -/
theorem read_code (endsLine : EndsLine behind) {opens : Option Opening}
    (opens_eq : opening? (char :: rest) = opens) :
    (⟨line, column, .code, none⟩ : State).read (char :: (rest ++ behind)) =
      ⟨line, column + 1, (entered ⟨line, column + 1⟩ opens).1,
        (entered ⟨line, column + 1⟩ opens).2⟩ := by
  have same := enter_eq ⟨line, column + 1⟩ (char :: (rest ++ behind))
  rw [opening?_append endsLine, opens_eq] at same
  simp only [read, Automaton.next, same]

theorem region_code (endsLine : EndsLine behind) {opens : Option Opening}
    (opens_eq : opening? (char :: rest) = opens) :
    ((⟨line, column, .code, none⟩ : State).cell (char :: (rest ++ behind))).region =
      (entered ⟨line, column + 1⟩ opens).1.region := by
  simp only [cell, read_code endsLine opens_eq, if_true]

end State

/-! ## Reading part of a line -/

/-- Reads characters with others behind them, which are only looked at. -/
def State.reads (state : State) : (chars behind : List Char) → List Cell × State
  | [], _ => ([], state)
  | char :: rest, behind =>
      let later := (state.read (char :: (rest ++ behind))).reads rest behind
      (state.cell (char :: (rest ++ behind)) :: later.1, later.2)

theorem State.reads_append (state : State) (first second behind : List Char) :
    state.reads (first ++ second) behind =
      ((state.reads first (second ++ behind)).1 ++
          ((state.reads first (second ++ behind)).2.reads second behind).1,
        ((state.reads first (second ++ behind)).2.reads second behind).2) := by
  induction first generalizing state with
  | nil => rfl
  | cons char rest ih =>
      simp only [List.cons_append, reads, List.append_assoc, ih]

/-- A run over the rest of a line and what follows it. -/
theorem trace_append (state : State) {chars : List Char} (sameLine : '\n' ∉ chars)
    (behind : List Char) :
    trace state (chars ++ behind) =
      { trace (state.reads chars behind).2 behind with
        cells := (state.reads chars behind).1 ++
          (trace (state.reads chars behind).2 behind).cells } := by
  induction chars generalizing state with
  | nil => rfl
  | cons char rest ih =>
      rw [List.mem_cons, not_or] at sameLine
      rw [List.cons_append, trace, if_neg (Ne.symm sameLine.1), ih _ sameLine.2]
      rfl

/-- Reading characters that all belong to one region and lead to a mode. -/
def State.Passes (state : State) (chars behind : List Char) (region : Region) (mode : Mode) :
    Prop :=
  state.reads chars behind =
    (Cell.run state.line state.column chars.length region,
      ⟨state.line, state.column + chars.length, mode, none⟩)

namespace State.Passes

variable {line column : Nat} {start middle final : Mode} {mark rest? : Option (Nat × Mode)}
variable {char : Char} {chars rest behind : List Char} {region : Region}

theorem nil : (⟨line, column, start, none⟩ : State).Passes [] behind region start :=
  rfl

theorem cons
    (region_eq : ((⟨line, column, start, mark⟩ : State).cell (char :: (rest ++ behind))).region =
      region)
    (step : (⟨line, column, start, mark⟩ : State).read (char :: (rest ++ behind)) =
      ⟨line, column + 1, middle, rest?⟩)
    (later : (⟨line, column + 1, middle, rest?⟩ : State).Passes rest behind region final) :
    (⟨line, column, start, mark⟩ : State).Passes (char :: rest) behind region final := by
  unfold Passes at later ⊢
  have first : (⟨line, column, start, mark⟩ : State).cell (char :: (rest ++ behind)) =
      ⟨line, column, region⟩ := by
    rw [← region_eq]
    rfl
  rw [reads, step, later, first, List.length_cons]
  simp only [Cell.run, List.range'_succ, List.map_cons]
  rw [Nat.add_assoc, Nat.add_comm 1]

/-- Two stretches of one region after each other. -/
theorem append {other : List Char}
    (first : (⟨line, column, start, mark⟩ : State).Passes chars (other ++ behind) region middle)
    (second : (⟨line, column + chars.length, middle, none⟩ : State).Passes other behind region
      final) :
    (⟨line, column, start, mark⟩ : State).Passes (chars ++ other) behind region final := by
  unfold Passes at first second ⊢
  rw [reads_append, first, second]
  simp only [Cell.run, List.length_append, ← List.map_append, List.range'_append_1, Nat.add_assoc]

/-- A mark is read to its end in the mode in which it was recognised. -/
theorem of_mark {mode behindMark : Mode} (notCode : mode ≠ .code) {left : Nat}
    (length : chars.length = left + 1) :
    (⟨line, column, mode, some (left, behindMark)⟩ : State).Passes chars behind mode.region
      behindMark := by
  induction left generalizing column chars with
  | zero =>
      obtain ⟨char, rfl⟩ := List.length_eq_one_iff.1 length
      exact cons (if_neg notCode) rfl nil
  | succ left ih =>
      cases chars with
      | nil => simp at length
      | cons char rest =>
          rw [List.length_cons, Nat.add_right_cancel_iff] at length
          exact cons (if_neg notCode) rfl (ih length)

/-- A comment goes on to the end of the line. -/
theorem of_lineComment :
    (⟨line, column, .lineComment, none⟩ : State).Passes chars behind .lineComment .lineComment := by
  induction chars generalizing column with
  | nil => exact nil
  | cons char rest ih => exact cons rfl rfl ih

section Strings

variable {quote : Char} {slashes : Nat} {opened : Position}

/-- Without an end the string goes on to the end of the line. -/
theorem of_string_open (unclosed : closeString? quote slashes chars = none) :
    ∃ escaped, (⟨line, column, .short quote (slashes % 2 = 1) opened, none⟩ : State).Passes
      chars behind .shortString (.short quote escaped opened) := by
  induction chars generalizing column slashes with
  | nil => exact ⟨_, nil⟩
  | cons char rest ih =>
      rw [closeString?] at unclosed
      split at unclosed
      · cases unclosed
      next goesOn =>
        obtain ⟨escaped, later⟩ := ih (Option.map_eq_none_iff.1 unclosed)
        exact ⟨escaped, cons rfl (read_short goesOn) later⟩

/-- The string ends with its first quote that is not escaped. -/
theorem of_string_closed (notSlash : quote ≠ '\\') {body after : List Char}
    (closed : closeString? quote slashes chars = some (body, after)) :
    (⟨line, column, .short quote (slashes % 2 = 1) opened, none⟩ : State).Passes body
      (after ++ behind) .shortString .code := by
  induction chars generalizing column slashes body with
  | nil => cases closed
  | cons char rest ih =>
      rw [closeString?] at closed
      split at closed
      next ends =>
        obtain ⟨rfl, even⟩ := ends
        cases closed
        refine cons rfl ?_ nil
        simp [read, Automaton.next, even, Ne.symm notSlash]
      next goesOn =>
        obtain ⟨⟨taken, others⟩, found, equal⟩ := Option.map_eq_some_iff.1 closed
        cases equal
        exact cons rfl (read_short goesOn) (ih found)

end Strings

section LongBrackets

variable {level : Nat} {isComment : Bool} {opened : Position}

/-- Without a closer the long bracket goes on to the end of the line. -/
theorem of_long_open (endsLine : EndsLine behind)
    (uncut : splitAfter? (longCloser level) chars = none) :
    (⟨line, column, .long level isComment opened, none⟩ : State).Passes chars behind
      (.longBracket level isComment) (.long level isComment opened) := by
  induction chars generalizing column with
  | nil => exact nil
  | cons char rest ih =>
      rw [splitAfter?] at uncut
      split at uncut
      · cases uncut
      next goesOn =>
        exact cons rfl (read_long endsLine (Bool.eq_false_iff.2 goesOn))
          (ih (Option.map_eq_none_iff.1 uncut))

/-- The long bracket ends with its first closer on the line. -/
theorem of_long_closed (endsLine : EndsLine behind) {body after : List Char}
    (cut : splitAfter? (longCloser level) chars = some (body, after)) :
    (⟨line, column, .long level isComment opened, none⟩ : State).Passes body (after ++ behind)
      (.longBracket level isComment) .code := by
  induction chars generalizing column body with
  | nil => simp [splitAfter?, longCloser] at cut
  | cons char rest ih =>
      rw [splitAfter?] at cut
      split at cut
      next closes =>
        cases cut
        generalize (char :: rest).drop (longCloser level).length ++ behind = others
        have closer : longCloser level <+: longCloser level ++ others := List.prefix_append _ _
        have step : (⟨line, column, .long level isComment opened, none⟩ : State).read
            (longCloser level ++ others) =
              ⟨line, column + 1, .long level isComment opened, some (level, .code)⟩ := by
          simp [read, Automaton.next, closer]
        have mark : (List.replicate level '=' ++ [']']).length = level + 1 := by simp
        exact cons rfl step (of_mark (by simp) mark)
      next goesOn =>
        obtain ⟨⟨taken, others⟩, found, equal⟩ := Option.map_eq_some_iff.1 cut
        cases equal
        refine cons rfl ?_ (ih found)
        rw [eq_append_of_splitAfter? found] at goesOn
        rw [← List.append_assoc]
        exact read_long endsLine (Bool.eq_false_iff.2 goesOn)

end LongBrackets

/-- An opener is read as a part of its long bracket. -/
theorem of_opener (endsLine : EndsLine behind) {level : Nat} {isComment : Bool}
    (opens : opening? (char :: rest) = some (.long level isComment)) :
    (⟨line, column, .code, none⟩ : State).Passes
      ((char :: rest).take (longWidth level isComment))
      (rest.drop (longWidth level isComment - 1) ++ behind) (.longBracket level isComment)
      (.long level isComment ⟨line, column + 1⟩) := by
  obtain ⟨left, wide⟩ : ∃ left, longWidth level isComment = left + 2 :=
    ⟨level + if isComment then 2 else 0, by rw [longWidth]; omega⟩
  have long := (opening?_eq_long_iff.1 opens).length_le
  rw [length_longOpener, List.length_cons, wide] at long
  have mark : (rest.take (left + 1)).length = left + 1 := by
    rw [List.length_take]
    omega
  have whole : rest.take (left + 1) ++ (rest.drop (left + 1) ++ behind) = rest ++ behind := by
    rw [← List.append_assoc, List.take_append_drop]
  have step : (⟨line, column, .code, none⟩ : State).read (char :: (rest ++ behind)) =
      ⟨line, column + 1, .long level isComment ⟨line, column + 1⟩,
        some (left, .long level isComment ⟨line, column + 1⟩)⟩ := by
    rw [read_code endsLine opens, entered, wide, Nat.add_sub_cancel]
  have region : ((⟨line, column, .code, none⟩ : State).cell (char :: (rest ++ behind))).region =
      .longBracket level isComment :=
    region_code endsLine opens
  rw [wide, List.take_succ_cons, Nat.add_sub_cancel (left + 1) 1]
  rw [← whole] at step region
  exact cons region step (of_mark (by simp) mark)

theorem take_append_drop_opener (char : Char) (rest : List Char) (level : Nat) (isComment : Bool) :
    (char :: rest).take (longWidth level isComment) ++
      rest.drop (longWidth level isComment - 1) = char :: rest := by
  obtain ⟨width, positive⟩ : ∃ width, longWidth level isComment = width + 1 :=
    ⟨level + 1 + if isComment then 2 else 0, by rw [longWidth]; omega⟩
  rw [positive, List.take_succ_cons, Nat.add_sub_cancel, List.cons_append, List.take_append_drop]

/-- A long bracket without a closer, its opener included. -/
theorem of_opener_open (endsLine : EndsLine behind) {level : Nat} {isComment : Bool}
    (opens : opening? (char :: rest) = some (.long level isComment))
    (uncut : splitAfter? (longCloser level) (rest.drop (longWidth level isComment - 1)) = none) :
    (⟨line, column, .code, none⟩ : State).Passes (char :: rest) behind
      (.longBracket level isComment) (.long level isComment ⟨line, column + 1⟩) := by
  rw [← take_append_drop_opener char rest level isComment]
  exact (of_opener endsLine opens).append (of_long_open endsLine uncut)

/-- A long bracket from its opener to its closer. -/
theorem of_opener_closed (endsLine : EndsLine behind) {level : Nat} {isComment : Bool}
    {body after : List Char} (opens : opening? (char :: rest) = some (.long level isComment))
    (cut : splitAfter? (longCloser level) (rest.drop (longWidth level isComment - 1)) =
      some (body, after)) :
    (⟨line, column, .code, none⟩ : State).Passes
      ((char :: rest).take (longWidth level isComment) ++ body) (after ++ behind)
      (.longBracket level isComment) .code := by
  have opener : (⟨line, column, .code, none⟩ : State).Passes
      ((char :: rest).take (longWidth level isComment)) (body ++ (after ++ behind))
      (.longBracket level isComment) (.long level isComment ⟨line, column + 1⟩) := by
    rw [← List.append_assoc, ← eq_append_of_splitAfter? cut]
    exact of_opener endsLine opens
  exact opener.append (of_long_closed endsLine cut)

/-- A string without an end, its opening quote included. -/
theorem of_quote_open (endsLine : EndsLine behind) {quote : Char}
    (opens : opening? (char :: rest) = some (.shortString quote))
    (unclosed : closeString? quote 0 rest = none) :
    ∃ escaped, (⟨line, column, .code, none⟩ : State).Passes (char :: rest) behind .shortString
      (.short quote escaped ⟨line, column + 1⟩) := by
  obtain ⟨escaped, later⟩ := of_string_open unclosed
  exact ⟨escaped, cons (region_code endsLine opens) (read_code endsLine opens) later⟩

/-- A string from its opening quote to its closing one. -/
theorem of_quote_closed (endsLine : EndsLine behind) {quote : Char} {body after : List Char}
    (opens : opening? (char :: rest) = some (.shortString quote))
    (closed : closeString? quote 0 rest = some (body, after)) :
    (⟨line, column, .code, none⟩ : State).Passes (char :: body) (after ++ behind) .shortString
      .code := by
  have notSlash : quote ≠ '\\' := by
    rintro rfl
    exact absurd (opening?_eq_shortString_iff.1 opens).1 (by decide)
  have region : ((⟨line, column, .code, none⟩ : State).cell (char :: (rest ++ behind))).region =
      .shortString :=
    region_code endsLine opens
  have step : (⟨line, column, .code, none⟩ : State).read (char :: (rest ++ behind)) =
      ⟨line, column + 1, .short quote false ⟨line, column + 1⟩, none⟩ :=
    read_code endsLine opens
  rw [eq_append_of_closeString? closed, List.append_assoc] at region step
  exact cons region step (of_string_closed notSlash closed)

end State.Passes

/-! ## Agreement on a line -/

/-- The state at the start of a line. -/
def State.start (line : Nat) : Option OpenBracket → State
  | none => ⟨line, 0, .code, none⟩
  | some bracket => ⟨line, 0, .long bracket.level bracket.isComment bracket.opened, none⟩

@[simp]
theorem State.start_line (line : Nat) (carry : Option OpenBracket) :
    (start line carry).line = line := by
  cases carry <;> rfl

@[simp]
theorem State.start_column (line : Nat) (carry : Option OpenBracket) :
    (start line carry).column = 0 := by
  cases carry <;> rfl

/-- The cells of pieces from a column on. -/
def cellsOf (line column : Nat) (pieces : List Piece) : List Cell :=
  (Span.ofPieces line column pieces).flatMap Span.cells

theorem cellsOf_cons (line column : Nat) (piece : Piece) (rest : List Piece) :
    cellsOf line column (piece :: rest) =
      Cell.run line column piece.chars.length piece.region ++
        cellsOf line (column + piece.chars.length) rest := by
  simp [cellsOf, Span.ofPieces, Span.cells]

theorem cellsOf_prependCode (line column : Nat) (char : Char) (scan : LineScan) :
    cellsOf line column (scan.prependCode char).pieces =
      ⟨line, column, .code⟩ :: cellsOf line (column + 1) scan.pieces := by
  rcases scan.prependCode_cases char with ⟨chars, rest, pieces, equal⟩ | equal
  · rw [equal, pieces, cellsOf_cons, cellsOf_cons, List.length_cons, Cell.run, List.range'_succ]
    simp only [List.map_cons, List.cons_append, Cell.run, Nat.add_assoc, Nat.add_comm 1]
  · simp [equal, cellsOf_cons, Cell.run]

/-- What the end of a line shows of a scan: the string that is cut off, and the state in
which the next line starts. -/
structure Agrees (line : Nat) (scan : LineScan) (state : State) : Prop where
  cutOff : state.cutOff = openStrings line [scan]
  breakLine : state.breakLine = .start (line + 1) scan.carry

theorem Agrees.prepend {line : Nat} {scan : LineScan} {state : State}
    (agrees : Agrees line scan state) (piece : Piece) : Agrees line (scan.prepend piece) state :=
  ⟨agrees.cutOff, agrees.breakLine⟩

theorem Agrees.prependCode {line : Nat} {scan : LineScan} {state : State}
    (agrees : Agrees line scan state) (char : Char) :
    Agrees line (scan.prependCode char) state := by
  rcases scan.prependCode_cases char with ⟨chars, rest, pieces, equal⟩ | equal
  · rw [equal]
    exact ⟨agrees.cutOff, agrees.breakLine⟩
  · rw [equal]
    exact ⟨agrees.cutOff, agrees.breakLine⟩

/-- Reading characters from a state on shows the pieces of a scan, and ends in agreement
with it. -/
def State.Shows (state : State) (chars behind : List Char) (scan : LineScan) : Prop :=
  ∃ final, state.reads chars behind = (cellsOf state.line state.column scan.pieces, final) ∧
    Agrees state.line scan final

namespace State.Shows

variable {line column : Nat} {start : Mode} {mark : Option (Nat × Mode)}
variable {chars behind : List Char} {region : Region}

/-- A stretch of one region up to the end of the line. -/
theorem of_passes {final : Mode} {openString : Option (Char × Nat)} {carry : Option OpenBracket}
    (passes : (⟨line, column, start, mark⟩ : State).Passes chars behind region final)
    (agrees : Agrees line ⟨[⟨region, chars⟩], openString, carry⟩
      ⟨line, column + chars.length, final, none⟩) :
    (⟨line, column, start, mark⟩ : State).Shows chars behind
      ⟨[⟨region, chars⟩], openString, carry⟩ := by
  refine ⟨_, ?_, agrees⟩
  rw [passes, cellsOf_cons]
  simp [cellsOf, Span.ofPieces]

/-- A stretch of one region, and then code. -/
theorem prepend {after : List Char} {scan : LineScan}
    (passes : (⟨line, column, start, mark⟩ : State).Passes chars (after ++ behind) region .code)
    (later : (⟨line, column + chars.length, .code, none⟩ : State).Shows after behind scan) :
    (⟨line, column, start, mark⟩ : State).Shows (chars ++ after) behind
      (scan.prepend ⟨region, chars⟩) := by
  obtain ⟨final, reads, agrees⟩ := later
  refine ⟨final, ?_, agrees.prepend _⟩
  rw [reads_append, passes, reads]
  simp only [LineScan.prepend, cellsOf_cons]

/-- From code on, the automaton shows what the scanner cuts. -/
theorem scanCode (endsLine : EndsLine behind) (line column : Nat) (chars : List Char) :
    (⟨line, column, .code, none⟩ : State).Shows chars behind
      (scanCode line (column + 1) chars) := by
  -- The scanner counts columns from one, and its own recursion is the one to follow.
  generalize place : column + 1 = scanColumn
  induction scanColumn, chars using scanCode.induct generalizing column with
  | case1 scanColumn =>
      rw [scanCode_nil]
      exact ⟨_, rfl, rfl, rfl⟩
  | case2 scanColumn char rest opens ih =>
      obtain ⟨final, reads, agrees⟩ := ih (column + 1) (by omega)
      rw [scanCode_code opens]
      refine ⟨final, ?_, agrees.prependCode char⟩
      have first : (⟨line, column, .code, none⟩ : State).cell (char :: (rest ++ behind)) =
          ⟨line, column, .code⟩ :=
        congrArg (Cell.mk line column) (region_code endsLine opens)
      rw [State.reads, read_code endsLine opens, first, cellsOf_prependCode]
      exact congrArg (fun pair : List Cell × State => (_ :: pair.1, pair.2)) reads
  | case3 scanColumn char rest opens =>
      rw [scanCode_lineComment opens]
      have passes : (⟨line, column, .code, none⟩ : State).Passes (char :: rest) behind
          .lineComment .lineComment :=
        .cons (region_code endsLine opens) (read_code endsLine opens) .of_lineComment
      exact of_passes passes ⟨rfl, rfl⟩
  | case4 scanColumn char rest level isComment opens uncut =>
      rw [scanCode_long_open opens uncut, ← place]
      exact of_passes (.of_opener_open endsLine opens uncut) ⟨rfl, rfl⟩
  | case5 scanColumn char rest level isComment opens body after cut ih =>
      have long := (opening?_eq_long_iff.1 opens).length_le
      rw [length_longOpener] at long
      have whole : char :: rest =
          (char :: rest).take (longWidth level isComment) ++ body ++ after := by
        rw [List.append_assoc, ← eq_append_of_splitAfter? cut, Passes.take_append_drop_opener]
      rw [scanCode_long_closed opens cut]
      nth_rewrite 1 [whole]
      refine prepend (.of_opener_closed endsLine opens cut) (ih _ ?_)
      rw [List.length_append, List.length_take]
      omega
  | case6 scanColumn char rest quote opens unclosed =>
      obtain ⟨escaped, passes⟩ := Passes.of_quote_open endsLine opens unclosed
      rw [scanCode_string_open opens unclosed, ← place]
      exact of_passes passes ⟨rfl, rfl⟩
  | case7 scanColumn char rest quote opens body after closed ih =>
      rw [scanCode_string_closed opens closed, eq_append_of_closeString? closed,
        ← List.cons_append]
      refine prepend (.of_quote_closed endsLine opens closed) (ih _ ?_)
      rw [List.length_cons]
      omega

/-- The automaton shows what the scanner cuts a line into, whatever is carried into it. -/
theorem scanLine (endsLine : EndsLine behind) (line : Nat) (carry : Option OpenBracket)
    (chars : Line) : (State.start line carry).Shows chars behind (scanLine line carry chars) := by
  cases carry with
  | none => exact scanCode endsLine line 0 chars
  | some bracket =>
      rw [Lua.scanLine]
      cases cut : splitAfter? (longCloser bracket.level) chars with
      | none =>
          cases chars with
          | nil => exact ⟨_, rfl, rfl, rfl⟩
          | cons char rest => exact of_passes (.of_long_open endsLine cut) ⟨rfl, rfl⟩
      | some pair =>
          obtain ⟨body, after⟩ := pair
          have later := scanCode endsLine line (0 + body.length) after
          rw [Nat.zero_add, Nat.add_comm body.length 1] at later
          rw [eq_append_of_splitAfter? cut]
          refine prepend (.of_long_closed endsLine cut) ?_
          rw [Nat.zero_add]
          exact later

end State.Shows

/-! ## Agreement on a text -/

/-- Going on to the next line leaves a long bracket open. -/
theorem State.leftOpen_breakLine (state : State) : state.breakLine.leftOpen = state.leftOpen := by
  obtain ⟨line, column, mode, mark⟩ := state
  cases mode <;> rfl

theorem State.leftOpen_start (line : Nat) (carry : Option OpenBracket) :
    (start line carry).leftOpen =
      match carry with
      | some bracket =>
          [{ cause := .openLongBracket bracket.level bracket.isComment,
             position := bracket.opened }]
      | none => [] := by
  cases carry <;> rfl

/-- A long bracket is reported exactly if the automaton is in one. -/
theorem State.exists_mem_leftOpen_iff (state : State) :
    (∃ finding ∈ state.leftOpen, finding.kind = .unterminatedLongBracket) ↔
      ∃ level isComment opened, state.mode = .long level isComment opened := by
  unfold leftOpen
  cases state.mode with
  | long level isComment opened => simp [Finding.kind, Cause.kind]
  | code => simp
  | short quote escaped opened => simp
  | lineComment => simp

/-- A run over lines, each followed by a line feed except the last. -/
theorem trace_lines (line : Nat) (carry : Option OpenBracket) {lines : List Line}
    (nonempty : lines ≠ []) (clean : ∀ chars ∈ lines, '\n' ∉ chars) :
    (trace (.start line carry) (['\n'].intercalate lines)).cells =
        (Span.ofScans line (scanLines line carry lines)).flatMap Span.cells ∧
      (trace (.start line carry) (['\n'].intercalate lines)).cutOff =
        openStrings line (scanLines line carry lines) ∧
      ∃ next, (trace (.start line carry) (['\n'].intercalate lines)).last.leftOpen =
        (State.start next ((scanLines line carry lines).getLast?.bind (·.carry))).leftOpen := by
  induction lines generalizing line carry with
  | nil => exact absurd rfl nonempty
  | cons chars rest ih =>
      rw [List.forall_mem_cons] at clean
      -- The last line has no line feed behind it, so its carry is compared by what breaking the
      -- line would leave open.
      cases rest with
      | nil =>
          obtain ⟨final, reads, agrees⟩ := State.Shows.scanLine (Or.inl rfl) line carry chars
          have run := trace_append (.start line carry) clean.1 []
          rw [List.append_nil, reads, trace, State.start_line, State.start_column] at run
          rw [State.start_line] at agrees
          rw [List.intercalate_singleton, run]
          refine ⟨?_, agrees.cutOff, line + 1, ?_⟩
          · simp [cellsOf, scanLines, Span.ofScans]
          · rw [← State.leftOpen_breakLine, agrees.breakLine]
            rfl
      | cons second others =>
          obtain ⟨final, reads, agrees⟩ :=
            State.Shows.scanLine (Or.inr ⟨_, rfl⟩) line carry chars
          have run := trace_append (.start line carry) clean.1
            ('\n' :: ['\n'].intercalate (second :: others))
          rw [reads, trace, if_pos rfl, State.start_line, State.start_column] at run
          rw [State.start_line] at agrees
          rw [agrees.breakLine] at run
          obtain ⟨cells, cutOff, next, leftOpen⟩ :=
            ih (line + 1) (scanLine line carry chars).carry (List.cons_ne_nil _ _) clean.2
          rw [List.intercalate_cons_cons, List.append_assoc, List.singleton_append, run]
          refine ⟨?_, ?_, next, ?_⟩
          · rw [scanLines, Span.ofScans, List.flatMap_append, cells]
            rfl
          · simp only [agrees.cutOff, cutOff, scanLines, openStrings, List.append_nil]
          · rw [scanLines, List.getLast?_cons_of_ne_nil (by simp [scanLines])]
            exact leftOpen

end Automaton

open Automaton

/-- **The scanner agrees with the automaton.** The spans cover every character exactly once,
with the region that the automaton reads it in. One finding is made for each string that is
open at the end of its line, at its opening quote, and one for the long bracket that the text
ends in, at the first character of its opener; there are no others. -/
theorem Scan.spans_findings_eq_trace (text : List Char) :
    (ofText text).spans.flatMap Span.cells = (traceOf text).cells ∧
      (ofText text).findings = (traceOf text).cutOff ++ (traceOf text).last.leftOpen ∧
      ((∃ finding ∈ (ofText text).findings, finding.kind = .unterminatedLongBracket) ↔
        ∃ level isComment opened, (traceOf text).last.mode = .long level isComment opened) := by
  have clean : ∀ chars ∈ Line.split text, '\n' ∉ chars := fun _ => Line.newline_notMem_split
  obtain ⟨cells, cutOff, next, leftOpen⟩ := trace_lines 1 none (Line.split_ne_nil text) clean
  rw [Line.intercalate_split] at cells cutOff leftOpen
  have findings : (ofText text).findings =
      (traceOf text).cutOff ++ (traceOf text).last.leftOpen := by
    rw [Scan.findings, traceOf]
    exact congrArg₂ (· ++ ·) cutOff.symm ((State.leftOpen_start next _).symm.trans leftOpen.symm)
  refine ⟨cells.symm, findings, ?_⟩
  rw [← State.exists_mem_leftOpen_iff, findings]
  constructor
  · rintro ⟨finding, found, kind⟩
    rcases List.mem_append.1 found with inStrings | inBracket
    · rw [traceOf] at inStrings
      obtain ⟨quote, position, rfl⟩ := exists_of_mem_openStrings (cutOff ▸ inStrings)
      cases kind
    · exact ⟨finding, inBracket, kind⟩
  · rintro ⟨finding, found, kind⟩
    exact ⟨finding, List.mem_append_right _ found, kind⟩

-- The quote behind two backslashes ends its string, so the comment behind it is one.
example : (traceOf "'\\\\'--[=[]]".toList).last.mode = .long 1 true ⟨1, 5⟩ := by decide

end EditGate.Lua

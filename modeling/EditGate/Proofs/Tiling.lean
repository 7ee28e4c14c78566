import EditGate.Proofs.Interiors
import EditGate.Proofs.Joining
import Mathlib

/-!
# Spans tile the text

The scanner cuts every line into pieces that are not empty and give the line back when they are put
together, whatever opens, closes or stays open on the way. Placed one behind the other, the pieces
of a line therefore run from its first column to its end, and every character of the text is in
exactly one span.
-/

namespace EditGate

/-- The character at a place. Lines are counted from one and columns from zero. -/
def Line.charAt? (lines : List Line) : (line column : Nat) → Option Char
  | 0, _ => none
  | index + 1, column => lines[index]?.bind (·[column]?)

namespace Lua

/-! ## Tilings -/

namespace Span

/-- Whether a span holds a place. -/
def Covers (span : Span) (line column : Nat) : Prop :=
  span.line = line ∧ span.start ≤ column ∧ column < span.stop

instance (span : Span) (line column : Nat) : Decidable (span.Covers line column) :=
  inferInstanceAs (Decidable (_ ∧ _ ∧ _))

/-- Whether a span ends before another one starts. -/
def Precedes (first second : Span) : Prop :=
  first.line < second.line ∨ first.line = second.line ∧ first.stop ≤ second.start

/-- Whether spans follow each other from one column to another, without a gap, without an overlap
and without an empty one. -/
def Abut (start stop : Nat) : List Span → Prop
  | [] => start = stop
  | span :: rest => span.start = start ∧ start < span.stop ∧ Abut span.stop stop rest

/-- What makes spans a tiling of lines. -/
structure Tile (lines : List Line) (spans : List Span) : Prop where
  /-- The spans stand in the order of the text, -/
  inOrder : spans.Pairwise Precedes
  /-- and none is empty. -/
  nonempty : ∀ span ∈ spans, span.start < span.stop
  /-- Those of a line run from its first column to its end, -/
  abut : ∀ index chars, lines[index]? = some chars →
    Abut 0 chars.length (spans.filter (·.line = index + 1))
  /-- so that an empty line has none. -/
  ne_of_empty : ∀ index, lines[index]? = some [] → ∀ span ∈ spans, span.line ≠ index + 1
  /-- Every character is covered once, and nothing else is covered. -/
  covered : ∀ line column, spans.countP (·.Covers line column) =
    if (Line.charAt? lines line column).isSome then 1 else 0

namespace Abut

variable {start stop line : Nat} {spans : List Span}

theorem le (abut : Abut start stop spans) : start ≤ stop := by
  induction spans generalizing start with
  | nil => exact le_of_eq abut
  | cons span rest ih => exact le_trans (le_of_lt abut.2.1) (ih abut.2.2)

theorem bounds (abut : Abut start stop spans) :
    ∀ span ∈ spans, start ≤ span.start ∧ span.start < span.stop ∧ span.stop ≤ stop := by
  induction spans generalizing start with
  | nil => exact List.forall_mem_nil _
  | cons span rest ih =>
      obtain ⟨rfl, positive, behind⟩ := abut
      rw [List.forall_mem_cons]
      refine ⟨⟨le_refl _, positive, behind.le⟩, fun later member => ?_⟩
      obtain ⟨after, inner⟩ := ih behind later member
      exact ⟨le_trans (le_of_lt positive) after, inner⟩

/-- Of spans that follow each other, one covers each column between their ends. -/
theorem countP_covers (abut : Abut start stop spans) (onLine : ∀ span ∈ spans, span.line = line)
    (column : Nat) :
    spans.countP (·.Covers line column) = if start ≤ column ∧ column < stop then 1 else 0 := by
  induction spans generalizing start with
  | nil =>
      obtain rfl : start = stop := abut
      rw [List.countP_nil, if_neg (by omega)]
  | cons span rest ih =>
      obtain ⟨rfl, positive, behind⟩ := abut
      have reach := behind.le
      rw [List.forall_mem_cons] at onLine
      rw [List.countP_cons, ih behind onLine.2]
      simp only [Covers, onLine.1, true_and, decide_eq_true_eq]
      split_ifs <;> omega

end Abut

end Span

/-! ## Lines one after the other -/

section ByLine

variable {α β : Type} {yield : Nat → α → List β} {place : β → Nat}

/-- What one item yields is found by its line. -/
theorem filter_byLine (places : ∀ line item, ∀ found ∈ yield line item, place found = line)
    (first : Nat) {items : List α} {index : Nat} {item : α} (stands : items[index]? = some item) :
    (byLine yield first items).filter (place · = first + index) = yield (first + index) item := by
  induction items generalizing first index with
  | nil => cases stands
  | cons head rest ih =>
      rw [byLine, List.filter_append]
      cases index with
      | zero =>
          obtain rfl := Option.some.inj stands
          have here : (yield first head).filter (place · = first + 0) = yield first head :=
            List.filter_eq_self.2 fun found member => by simp [places first head found member]
          have later : (byLine yield (first + 1) rest).filter (place · = first + 0) = [] := by
            rw [List.filter_eq_nil_iff]
            intro found member
            obtain ⟨index, item, -, yielded⟩ := (mem_byLine_iff ..).1 member
            have := places _ _ found yielded
            simp only [decide_eq_true_eq]
            omega
          rw [here, later, List.append_nil, Nat.add_zero]
      | succ index =>
          have here : (yield first head).filter (place · = first + (index + 1)) = [] := by
            rw [List.filter_eq_nil_iff]
            intro found member
            have := places first head found member
            simp only [decide_eq_true_eq]
            omega
          have next : first + (index + 1) = first + 1 + index := by omega
          rw [here, List.nil_append, next]
          exact ih (first + 1) stands

end ByLine

/-- The scan of a line is that of the line inside what is carried into it. -/
theorem getElem?_scanLines (line : Nat) (carry : Option OpenBracket) (lines : List Line)
    (index : Nat) : ∃ carried, (scanLines line carry lines)[index]? =
      lines[index]?.map (scanLine (line + index) carried) := by
  induction lines generalizing line carry index with
  | nil => exact ⟨none, rfl⟩
  | cons chars rest ih =>
      cases index with
      | zero => exact ⟨carry, rfl⟩
      | succ index =>
          obtain ⟨carried, found⟩ := ih (line + 1) (scanLine line carry chars).carry index
          refine ⟨carried, ?_⟩
          rwa [Nat.add_right_comm, Nat.add_assoc] at found

/-! ## Cuts -/

/-- Whether the pieces of a scan are not empty and give a line back. -/
structure LineScan.Cuts (scan : LineScan) (chars : Line) : Prop where
  joined : scan.pieces.flatMap Piece.chars = chars
  nonempty : ∀ piece ∈ scan.pieces, piece.chars ≠ []

namespace LineScan.Cuts

variable {scan : LineScan} {chars : Line}

theorem prepend (cuts : scan.Cuts chars) (piece : Piece) (nonempty : piece.chars ≠ []) :
    (scan.prepend piece).Cuts (piece.chars ++ chars) where
  joined := by rw [LineScan.prepend, List.flatMap_cons, cuts.joined]
  nonempty := List.forall_mem_cons.2 ⟨nonempty, cuts.nonempty⟩

theorem prependCode (cuts : scan.Cuts chars) (char : Char) :
    (scan.prependCode char).Cuts (char :: chars) := by
  rcases scan.prependCode_cases char with ⟨first, rest, pieces, equal⟩ | equal
  · obtain ⟨joined, nonempty⟩ := cuts
    rw [pieces] at joined nonempty
    rw [equal]
    refine ⟨?_, List.forall_mem_cons.2 ⟨List.cons_ne_nil char first, ?_⟩⟩
    · rw [List.flatMap_cons, List.cons_append, ← joined, List.flatMap_cons]
    · exact (List.forall_mem_cons.1 nonempty).2
  · rw [equal]
    exact cuts.prepend ⟨.code, [char]⟩ (List.cons_ne_nil char [])

/-- A line that is one piece. -/
theorem singleton (region : Region) (nonempty : chars ≠ []) (openString : Option (Char × Nat))
    (carry : Option OpenBracket) : (⟨[⟨region, chars⟩], openString, carry⟩ : LineScan).Cuts chars :=
  ⟨List.flatMap_singleton Piece.chars ⟨region, chars⟩, List.forall_mem_singleton.2 nonempty⟩

/-- Whatever opens in it, a line that starts in code is cut. -/
theorem scanCode (line column : Nat) (chars : List Char) :
    (Lua.scanCode line column chars).Cuts chars := by
  induction column, chars using Lua.scanCode.induct with
  | case1 column =>
      rw [scanCode_nil]
      exact ⟨rfl, List.forall_mem_nil _⟩
  | case2 column char rest opens ih =>
      rw [scanCode_code opens]
      exact ih.prependCode char
  | case3 column char rest opens =>
      rw [scanCode_lineComment opens]
      exact singleton _ (List.cons_ne_nil char rest) _ _
  | case4 column char rest level isComment opens uncut =>
      rw [scanCode_long_open opens uncut]
      exact singleton _ (List.cons_ne_nil char rest) _ _
  | case5 column char rest level isComment opens body after cut ih =>
      obtain ⟨first, others, opener⟩ := exists_longOpener_cons level isComment
      rw [eq_longOpener_append opens, scanCode_opener_closed cut, eq_append_of_splitAfter? cut,
        ← List.append_assoc]
      exact ih.prepend ⟨.longBracket level isComment, _⟩ (by simp [opener])
  | case6 column char rest quote opens unclosed =>
      rw [scanCode_string_open opens unclosed]
      exact singleton _ (List.cons_ne_nil char rest) _ _
  | case7 column char rest quote opens body after closed ih =>
      rw [scanCode_string_closed opens closed, eq_append_of_closeString? closed, ← List.cons_append]
      exact ih.prepend ⟨.shortString, char :: body⟩ (List.cons_ne_nil char body)

/-- A line is cut whatever is carried into it. -/
theorem scanLine (line : Nat) (carry : Option OpenBracket) (chars : Line) :
    (Lua.scanLine line carry chars).Cuts chars := by
  cases carry with
  | none => exact scanCode line 1 chars
  | some bracket =>
      rw [Lua.scanLine]
      cases cut : splitAfter? (longCloser bracket.level) chars with
      | none =>
          cases chars with
          | nil => exact ⟨rfl, List.forall_mem_nil _⟩
          | cons char rest => exact singleton _ (List.cons_ne_nil char rest) _ _
      | some pair =>
          obtain ⟨body, after⟩ := pair
          obtain ⟨inner, rfl⟩ := exists_of_splitAfter? cut
          rw [eq_append_of_splitAfter? cut]
          exact (scanCode line _ after).prepend ⟨.longBracket bracket.level bracket.isComment, _⟩
            (by simp [longCloser])

end LineScan.Cuts

/-! ## Places -/

namespace Span

variable {line start : Nat} {pieces : List Piece}

theorem line_of_mem_ofPieces {span : Span} (member : span ∈ ofPieces line start pieces) :
    span.line = line := by
  induction pieces generalizing start with
  | nil => cases member
  | cons piece rest ih =>
      rcases List.mem_cons.1 member with rfl | later
      · rfl
      · exact ih later

theorem start_le_of_mem_ofPieces {span : Span} (member : span ∈ ofPieces line start pieces) :
    start ≤ span.start := by
  induction pieces generalizing start with
  | nil => cases member
  | cons piece rest ih =>
      rcases List.mem_cons.1 member with rfl | later
      · exact le_refl _
      · exact le_trans (Nat.le_add_right _ _) (ih later)

theorem pairwise_ofPieces (line start : Nat) (pieces : List Piece) :
    (ofPieces line start pieces).Pairwise Precedes := by
  induction pieces generalizing start with
  | nil => exact .nil
  | cons piece rest ih =>
      refine .cons (fun later member => ?_) (ih _)
      exact .inr ⟨(line_of_mem_ofPieces member).symm, start_le_of_mem_ofPieces member⟩

/-- Pieces that are not empty are placed one right behind the other. -/
theorem abut_ofPieces (line start : Nat) {pieces : List Piece}
    (nonempty : ∀ piece ∈ pieces, piece.chars ≠ []) :
    Abut start (start + (pieces.flatMap Piece.chars).length) (ofPieces line start pieces) := by
  induction pieces generalizing start with
  | nil => rfl
  | cons piece rest ih =>
      rw [List.forall_mem_cons] at nonempty
      have positive := List.length_pos_iff.2 nonempty.1
      refine ⟨rfl, Nat.lt_add_of_pos_right positive, ?_⟩
      rw [List.flatMap_cons, List.length_append, ← Nat.add_assoc]
      exact ih _ nonempty.2

end Span

/-- The pieces of a line that is cut run from its first column to its end. -/
theorem LineScan.Cuts.abut {scan : LineScan} {chars : Line} (cuts : scan.Cuts chars)
    (line : Nat) : Span.Abut 0 chars.length (Span.ofPieces line 0 scan.pieces) := by
  have placed := Span.abut_ofPieces line 0 cuts.nonempty
  rwa [cuts.joined, Nat.zero_add] at placed

/-! ## Texts -/

namespace Scan

variable {text : List Char}

/-- The spans of a line are its pieces with their places. -/
theorem exists_filter_spans {index : Nat} {chars : Line}
    (stands : (Line.split text)[index]? = some chars) :
    ∃ scan, (ofText text).scans[index]? = some scan ∧ scan.Cuts chars ∧
      (ofText text).spans.filter (·.line = index + 1) =
        Span.ofPieces (index + 1) 0 scan.pieces := by
  obtain ⟨carried, found⟩ := getElem?_scanLines 1 none (Line.split text) index
  rw [stands] at found
  refine ⟨_, found, .scanLine _ _ chars, ?_⟩
  rw [spans, ofScans_eq_byLine, Nat.add_comm index 1]
  exact filter_byLine (fun line scan span => Span.line_of_mem_ofPieces) 1 found

/-- A span is on a line of the text, among the pieces of its scan. -/
theorem exists_line_of_mem_spans {span : Span} (member : span ∈ (ofText text).spans) :
    ∃ index chars scan, (Line.split text)[index]? = some chars ∧
      (ofText text).scans[index]? = some scan ∧ scan.Cuts chars ∧ span.line = index + 1 ∧
      span ∈ Span.ofPieces (index + 1) 0 scan.pieces := by
  rw [spans, ofScans_eq_byLine, mem_byLine_iff] at member
  obtain ⟨index, scan, found, placed⟩ := member
  rw [Nat.add_comm 1 index] at placed
  obtain ⟨carried, also⟩ := getElem?_scanLines 1 none (Line.split text) index
  obtain ⟨chars, stands, rfl⟩ := Option.map_eq_some_iff.1 (also.symm.trans found)
  exact ⟨index, chars, _, stands, found, .scanLine _ _ chars, Span.line_of_mem_ofPieces placed,
    placed⟩

theorem countP_covers_eq_filter (spans : List Span) (line column : Nat) :
    spans.countP (·.Covers line column) =
      (spans.filter (·.line = line)).countP (·.Covers line column) := by
  rw [List.countP_filter]
  refine List.countP_congr fun span _ => ?_
  simp only [Bool.and_eq_true, decide_eq_true_eq]
  exact ⟨fun covers => ⟨covers, covers.1⟩, And.left⟩

theorem countP_covers_spans (text : List Char) (line column : Nat) :
    (ofText text).spans.countP (·.Covers line column) =
      if (Line.charAt? (Line.split text) line column).isSome then 1 else 0 := by
  have nowhere (absent : ∀ span ∈ (ofText text).spans, span.line ≠ line) :
      (ofText text).spans.countP (·.Covers line column) = 0 :=
    List.countP_eq_zero.2 fun span member covers => absent span member (of_decide_eq_true covers).1
  cases line with
  | zero =>
      rw [Line.charAt?, nowhere]
      · rfl
      · intro span member
        obtain ⟨index, -, -, -, -, -, onLine, -⟩ := exists_line_of_mem_spans member
        omega
  | succ index =>
      rw [Line.charAt?]
      cases stands : (Line.split text)[index]? with
      | none =>
          rw [nowhere]
          · rfl
          · intro span member same
            obtain ⟨other, chars, -, found, -, -, onLine, -⟩ := exists_line_of_mem_spans member
            obtain rfl : other = index := by omega
            rw [stands] at found
            cases found
      | some chars =>
          obtain ⟨scan, -, cuts, here⟩ := exists_filter_spans stands
          rw [countP_covers_eq_filter, here,
            (cuts.abut _).countP_covers fun span => Span.line_of_mem_ofPieces]
          simp

/-- **Spans tile the text.** They stand in the order of the text and none is empty. Those of a line
run from its first column to its end without a gap or an overlap, so that every character but the
line feeds is covered exactly once and an empty line has no span. -/
theorem tile_spans (text : List Char) : Span.Tile (Line.split text) (ofText text).spans := by
  refine ⟨?_, ?_, ?_, ?_, countP_covers_spans text⟩
  · rw [spans, ofScans_eq_byLine]
    apply pairwise_byLine
    · intro line scan
      exact Span.pairwise_ofPieces line 0 scan.pieces
    · intro line scan later other below span here next there
      left
      rwa [Span.line_of_mem_ofPieces here, Span.line_of_mem_ofPieces there]
  · intro span member
    obtain ⟨index, chars, scan, -, -, cuts, -, placed⟩ := exists_line_of_mem_spans member
    exact ((cuts.abut _).bounds span placed).2.1
  · intro index chars stands
    obtain ⟨scan, -, cuts, here⟩ := exists_filter_spans stands
    rw [here]
    exact cuts.abut _
  · intro index stands span member onLine
    obtain ⟨scan, -, cuts, here⟩ := exists_filter_spans stands
    have placed : span ∈ (ofText text).spans.filter (·.line = index + 1) := by simp [member, onLine]
    rw [here] at placed
    have := (cuts.abut _).bounds span placed
    simp only [List.length_nil] at this
    omega

end Scan

end Lua

end EditGate

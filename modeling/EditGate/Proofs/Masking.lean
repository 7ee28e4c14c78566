import EditGate.Proofs.Tiling
import Mathlib

/-!
# Masks are code

Masking a text blots out with spaces all that is not code and leaves every character where it is. In
what comes out nothing opens any more. A mark in it has no space, so all of its characters were code
before and stood side by side; and where it starts, the scanner would have seen it then. So a masked
text is code throughout, and masking it again changes nothing.
-/

namespace EditGate.Lua

/-! ## Marks -/

/-- The marks that end a stretch of code. -/
inductive IsMark : List Char → Prop where
  | dashes : IsMark ['-', '-']
  | doubleQuote : IsMark ['"']
  | singleQuote : IsMark ['\'']
  | bracket (level : Nat) : IsMark (longOpener level false)

theorem IsMark.space_notMem {mark : List Char} (isMark : IsMark mark) : ' ' ∉ mark := by
  cases isMark with
  | dashes => decide
  | doubleQuote => decide
  | singleQuote => decide
  | bracket level => exact fun found => absurd (mem_longOpener found) (by decide)

/-- Code goes on where no mark stands. -/
theorem opening?_eq_none_iff {chars : List Char} :
    opening? chars = none ↔ ∀ mark, IsMark mark → ¬mark <+: chars := by
  constructor
  · intro goesOn mark isMark stands
    cases isMark with
    | dashes =>
        by_cases long : ∃ level, longOpener level true <+: chars
        · obtain ⟨level, opener⟩ := long
          rw [opening?_eq_long_iff.2 opener] at goesOn
          cases goesOn
        · rw [opening?_eq_lineComment_iff.2 ⟨stands, not_exists.1 long⟩] at goesOn
          cases goesOn
    | doubleQuote =>
        rw [opening?_eq_shortString_iff.2 ⟨.inl rfl, stands⟩] at goesOn
        cases goesOn
    | singleQuote =>
        rw [opening?_eq_shortString_iff.2 ⟨.inr rfl, stands⟩] at goesOn
        cases goesOn
    | bracket level =>
        rw [opening?_eq_long_iff.2 stands] at goesOn
        cases goesOn
  · intro unmarked
    cases opens : opening? chars with
    | none => rfl
    | some opening =>
        exfalso
        cases opening with
        | lineComment => exact unmarked _ .dashes (opening?_eq_lineComment_iff.1 opens).1
        | long level isComment =>
            have opener := opening?_eq_long_iff.1 opens
            cases isComment with
            | false => exact unmarked _ (.bracket level) opener
            | true => exact unmarked _ .dashes ((List.prefix_append _ _).trans opener)
        | shortString quote =>
            obtain ⟨rfl | rfl, stands⟩ := opening?_eq_shortString_iff.1 opens
            · exact unmarked _ .doubleQuote stands
            · exact unmarked _ .singleQuote stands

/-! ## Blotted lines -/

/-- Whether a line is another one, some characters of which are blotted out. -/
def Blots : (olds news : List Char) → Prop :=
  List.Forall₂ fun old new => new = old ∨ new = ' '

namespace Blots

variable {olds news : List Char}

theorem refl (chars : List Char) : Blots chars chars :=
  List.forall₂_same.2 fun _ _ => .inl rfl

theorem spaces (chars : List Char) : Blots chars (List.replicate chars.length ' ') := by
  induction chars with
  | nil => exact .nil
  | cons char rest ih => exact .cons (.inr rfl) ih

theorem mem {char : Char} (blots : Blots olds news) (found : char ∈ news) (notSpace : char ≠ ' ') :
    char ∈ olds := by
  induction blots with
  | nil => exact found
  | cons same _ ih =>
      rcases List.mem_cons.1 found with rfl | later
      · exact List.mem_cons.2 (.inl (same.resolve_right notSpace))
      · exact List.mem_cons_of_mem _ (ih later)

/-- What stands in front after the blotting stood there before, unless it has a space. -/
theorem prefix_of_prefix {mark : List Char} (blots : Blots olds news) (noSpace : ' ' ∉ mark)
    (stands : mark <+: news) : mark <+: olds := by
  induction mark generalizing olds news with
  | nil => exact List.nil_prefix
  | cons first rest ih =>
      rw [List.mem_cons, not_or] at noSpace
      cases blots with
      | nil => exact absurd (List.prefix_nil.1 stands) (List.cons_ne_nil first rest)
      | cons same others =>
          obtain ⟨rfl, further⟩ := List.cons_prefix_cons.1 stands
          exact List.cons_prefix_cons.2
            ⟨same.resolve_right (Ne.symm noSpace.1), ih others noSpace.2 further⟩

/-- Blotting out makes nothing open. -/
theorem opening?_eq_none (blots : Blots olds news) (goesOn : opening? olds = none) :
    opening? news = none := by
  rw [opening?_eq_none_iff] at goesOn ⊢
  intro mark isMark stands
  exact goesOn mark isMark (blots.prefix_of_prefix isMark.space_notMem stands)

end Blots

theorem Piece.blots_mask (piece : Piece) : Blots piece.chars piece.mask := by
  obtain ⟨region, chars⟩ := piece
  cases region with
  | code => exact .refl chars
  | _ => exact .spaces chars

namespace LineScan.Cuts

variable {scan : LineScan} {chars : Line}

/-- The code of a line is the line with the rest blotted out. -/
theorem blots (cuts : scan.Cuts chars) : Blots chars scan.code := by
  rw [← cuts.joined, LineScan.code]
  generalize scan.pieces = pieces
  induction pieces with
  | nil => exact .nil
  | cons piece rest ih => exact List.rel_append piece.blots_mask ih

end LineScan.Cuts

/-! ## Lines in which nothing opens -/

/-- Whether nothing opens anywhere in a line. -/
def Calm : List Char → Prop
  | [] => True
  | char :: rest => opening? (char :: rest) = none ∧ Calm rest

theorem calm_spaces_append (count : Nat) {rest : List Char} (calm : Calm rest) :
    Calm (List.replicate count ' ' ++ rest) := by
  induction count with
  | zero => exact calm
  | succ count ih => exact ⟨opening?_blank (by decide) _, ih⟩

/-- Nothing opens in front of what is no code either. -/
theorem calm_mask_append {piece : Piece} (notCode : piece.region ≠ .code) {rest : List Char}
    (calm : Calm rest) : Calm (piece.mask ++ rest) := by
  obtain ⟨region, chars⟩ := piece
  cases region with
  | code => exact absurd rfl notCode
  | _ => exact calm_spaces_append chars.length calm

theorem calm_code_singleton {region : Region} (notCode : region ≠ .code) (chars : List Char)
    (openString : Option (Char × Nat)) (carry : Option OpenBracket) :
    Calm (⟨[⟨region, chars⟩], openString, carry⟩ : LineScan).code :=
  calm_mask_append notCode trivial

theorem calm_code_scanCode (line column : Nat) (chars : List Char) :
    Calm (scanCode line column chars).code := by
  induction column, chars using scanCode.induct with
  | case1 column =>
      rw [scanCode_nil]
      trivial
  | case2 column char rest opens ih =>
      rw [scanCode_code opens, LineScan.code_prependCode]
      have blots : Blots (char :: rest) (char :: (scanCode line (column + 1) rest).code) :=
        .cons (.inl rfl) (LineScan.Cuts.scanCode line (column + 1) rest).blots
      exact ⟨blots.opening?_eq_none opens, ih⟩
  | case3 column char rest opens =>
      rw [scanCode_lineComment opens]
      exact calm_code_singleton (by simp) _ _ _
  | case4 column char rest level isComment opens uncut =>
      rw [scanCode_long_open opens uncut]
      exact calm_code_singleton (by simp) _ _ _
  | case5 column char rest level isComment opens body after cut ih =>
      rw [scanCode_long_closed opens cut]
      exact calm_mask_append (by simp) ih
  | case6 column char rest quote opens unclosed =>
      rw [scanCode_string_open opens unclosed]
      exact calm_code_singleton (by simp) _ _ _
  | case7 column char rest quote opens body after closed ih =>
      rw [scanCode_string_closed opens closed]
      exact calm_mask_append (by simp) ih

theorem calm_code_scanLine (line : Nat) (carry : Option OpenBracket) (chars : Line) :
    Calm (scanLine line carry chars).code := by
  cases carry with
  | none => exact calm_code_scanCode line 1 chars
  | some bracket =>
      rw [scanLine]
      cases splitAfter? (longCloser bracket.level) chars with
      | none =>
          cases chars with
          | nil => trivial
          | cons char rest => exact calm_code_singleton (by simp) _ _ _
      | some pair => exact calm_mask_append (by simp) (calm_code_scanCode _ _ _)

/-- A line that is code throughout. -/
def LineScan.ofCode (chars : Line) : LineScan :=
  ⟨if chars.isEmpty then [] else [⟨.code, chars⟩], none, none⟩

@[simp]
theorem LineScan.code_ofCode (chars : Line) : (ofCode chars).code = chars := by
  cases chars with
  | nil => rfl
  | cons char rest => exact List.append_nil _

/-- A line in which nothing opens is code throughout. -/
theorem scanCode_of_calm {chars : List Char} (calm : Calm chars) (line column : Nat) :
    scanCode line column chars = .ofCode chars := by
  induction chars generalizing column with
  | nil => exact scanCode_nil
  | cons char rest ih =>
      rw [scanCode_code calm.1, ih calm.2]
      cases rest <;> rfl

/-- Of lines that are code throughout, no string is cut off. -/
theorem openStrings_map_ofCode (line : Nat) (lines : List Line) :
    openStrings line (lines.map .ofCode) = [] := by
  induction lines generalizing line with
  | nil => rfl
  | cons chars rest ih => exact ih (line + 1)

theorem scanLines_of_calm {lines : List Line} (calm : ∀ chars ∈ lines, Calm chars) (line : Nat) :
    scanLines line none lines = lines.map .ofCode := by
  induction lines generalizing line with
  | nil => rfl
  | cons chars rest ih =>
      rw [List.forall_mem_cons] at calm
      have here : scanLine line none chars = .ofCode chars := scanCode_of_calm calm.1 line 1
      rw [scanLines, here]
      exact congrArg _ (ih calm.2 (line + 1))

/-! ## Characters that stay -/

/-- Whether a place is in a span of code. -/
def Span.InCode (spans : List Span) (line column : Nat) : Prop :=
  ∃ span ∈ spans, span.region = .code ∧ span.Covers line column

instance (spans : List Span) (line column : Nat) : Decidable (Span.InCode spans line column) :=
  inferInstanceAs (Decidable (∃ span ∈ spans, _))

/-- Only the spans of a line matter for its places. -/
theorem Span.inCode_filter_line (spans : List Span) (line column : Nat) :
    InCode (spans.filter (·.line = line)) line column ↔ InCode spans line column := by
  constructor
  · rintro ⟨span, member, isCode, covers⟩
    exact ⟨span, List.mem_of_mem_filter member, isCode, covers⟩
  · rintro ⟨span, member, isCode, covers⟩
    exact ⟨span, List.mem_filter.2 ⟨member, decide_eq_true covers.1⟩, isCode, covers⟩

theorem Span.inCode_ofPieces_cons (line start : Nat) (piece : Piece) (rest : List Piece)
    (column : Nat) :
    InCode (ofPieces line start (piece :: rest)) line (start + column) ↔
      if column < piece.chars.length then piece.region = .code
      else InCode (ofPieces line (start + piece.chars.length) rest) line (start + column) := by
  have split : InCode (ofPieces line start (piece :: rest)) line (start + column) ↔
      (piece.region = .code ∧ column < piece.chars.length) ∨
        InCode (ofPieces line (start + piece.chars.length) rest) line (start + column) := by
    simp [InCode, ofPieces, Covers]
  rw [split]
  split_ifs with here
  · refine ⟨?_, fun isCode => .inl ⟨isCode, here⟩⟩
    rintro (⟨isCode, -⟩ | ⟨span, later, -, -, starts, -⟩)
    · exact isCode
    · have behind := start_le_of_mem_ofPieces later
      omega
  · simp [here]

theorem Piece.getElem?_mask (piece : Piece) (column : Nat) :
    piece.mask[column]? =
      piece.chars[column]?.map fun char => if piece.region = .code then char else ' ' := by
  obtain ⟨region, chars⟩ := piece
  cases region with
  | code => simp [mask]
  | _ =>
      by_cases inside : column < chars.length
      · simp [mask, inside]
      · simp [mask, inside]

theorem getElem?_flatMap_mask (line start column : Nat) (pieces : List Piece) :
    (pieces.flatMap Piece.mask)[column]? = (pieces.flatMap Piece.chars)[column]?.map fun char =>
      if Span.InCode (Span.ofPieces line start pieces) line (start + column) then char
      else ' ' := by
  induction pieces generalizing start column with
  | nil => rfl
  | cons piece rest ih =>
      have width : piece.mask.length = piece.chars.length := piece.blots_mask.length_eq.symm
      by_cases here : column < piece.chars.length
      · simp only [List.flatMap_cons, Span.inCode_ofPieces_cons, if_pos here]
        rw [List.getElem?_append_left (width ▸ here), List.getElem?_append_left here,
          piece.getElem?_mask]
      · simp only [List.flatMap_cons, Span.inCode_ofPieces_cons, if_neg here]
        have place : start + column =
            start + piece.chars.length + (column - piece.chars.length) := by omega
        rw [List.getElem?_append_right (width ▸ not_lt.1 here), width,
          List.getElem?_append_right (not_lt.1 here), ih, place]

/-- Of a line that is cut, the code stays and all else becomes a space. -/
theorem LineScan.Cuts.getElem?_code {scan : LineScan} {chars : Line} (cuts : scan.Cuts chars)
    (line column : Nat) :
    scan.code[column]? = chars[column]?.map fun char =>
      if Span.InCode (Span.ofPieces line 0 scan.pieces) line column then char else ' ' := by
  have placed := getElem?_flatMap_mask line 0 column scan.pieces
  rwa [cuts.joined, Nat.zero_add] at placed

/-! ## Masked texts -/

namespace Scan

variable (text : List Char)

/-- The text with all that is not code blotted out. -/
def masked : List Char :=
  ['\n'].intercalate (ofText text).code

/-- The code of a line, and the scan that it comes from. -/
theorem exists_getElem?_code (index : Nat) : ∃ carried,
    (ofText text).code[index]? =
      (Line.split text)[index]?.map fun chars => (scanLine (1 + index) carried chars).code := by
  obtain ⟨carried, found⟩ := getElem?_scanLines 1 none (Line.split text) index
  refine ⟨carried, ?_⟩
  simp only [code, ofText, List.getElem?_map, found, Option.map_map]
  rfl

theorem exists_of_mem_code {chars : Line} (member : chars ∈ (ofText text).code) :
    ∃ line carried old, old ∈ Line.split text ∧ chars = (scanLine line carried old).code := by
  obtain ⟨index, found⟩ := List.mem_iff_getElem?.1 member
  obtain ⟨carried, also⟩ := exists_getElem?_code text index
  obtain ⟨old, stands, rfl⟩ := Option.map_eq_some_iff.1 (also.symm.trans found)
  exact ⟨1 + index, carried, old, List.mem_of_getElem? stands, rfl⟩

/-- The lines of a masked text are the lines of code. -/
theorem split_masked : Line.split (masked text) = (ofText text).code := by
  apply Line.split_intercalate
  · intro chars member feed
    obtain ⟨line, carried, old, stands, rfl⟩ := exists_of_mem_code text member
    have kept := (LineScan.Cuts.scanLine line carried old).blots.mem feed (by decide)
    exact Line.newline_notMem_split stands kept
  · rw [code, ne_eq, List.map_eq_nil_iff]
    exact scans_ne_nil text

/-- Nothing opens in a masked text. -/
theorem scans_masked : (ofText (masked text)).scans = (ofText text).code.map .ofCode := by
  simp only [ofText, split_masked]
  refine scanLines_of_calm (fun chars member => ?_) 1
  obtain ⟨line, carried, old, -, rfl⟩ := exists_of_mem_code text member
  exact calm_code_scanLine line carried old

theorem region_of_mem_spans_masked {span : Span} (member : span ∈ (ofText (masked text)).spans) :
    span.region = .code := by
  rw [spans, ofScans_eq_byLine, mem_byLine_iff, scans_masked] at member
  obtain ⟨index, scan, found, placed⟩ := member
  rw [List.getElem?_map, Option.map_eq_some_iff] at found
  obtain ⟨chars, -, rfl⟩ := found
  cases chars with
  | nil => cases placed
  | cons char rest =>
      obtain rfl := List.mem_singleton.1 placed
      rfl

theorem findings_masked : (ofText (masked text)).findings = [] := by
  rw [findings, openBracket, scans_masked, openStrings_map_ofCode, List.getLast?_map]
  cases (ofText text).code.getLast? <;> rfl

theorem code_masked : (ofText (masked text)).code = (ofText text).code := by
  rw [code, scans_masked, List.map_map]
  exact (List.map_congr_left fun chars _ => LineScan.code_ofCode chars).trans (List.map_id _)

theorem map_length_split_masked :
    (Line.split (masked text)).map List.length = (Line.split text).map List.length := by
  rw [split_masked]
  refine List.ext_getElem? fun index => ?_
  obtain ⟨carried, found⟩ := exists_getElem?_code text index
  rw [List.getElem?_map, found, List.getElem?_map, Option.map_map]
  cases (Line.split text)[index]? with
  | none => rfl
  | some chars =>
      exact congrArg some (LineScan.Cuts.scanLine _ _ chars).blots.length_eq.symm

theorem charAt?_masked (line column : Nat) :
    Line.charAt? (Line.split (masked text)) line column =
      (Line.charAt? (Line.split text) line column).map fun char =>
        if Span.InCode (ofText text).spans line column then char else ' ' := by
  cases line with
  | zero => rfl
  | succ index =>
      rw [split_masked]
      simp only [Line.charAt?, code, List.getElem?_map]
      cases stands : (Line.split text)[index]? with
      | none =>
          obtain ⟨carried, found⟩ := getElem?_scanLines 1 none (Line.split text) index
          rw [stands] at found
          simp [ofText, found]
      | some chars =>
          obtain ⟨scan, found, cuts, here⟩ := exists_filter_spans stands
          simp only [found, Option.map_some, Option.bind_some]
          simp only [← Span.inCode_filter_line (ofText text).spans, here]
          exact cuts.getElem?_code (index + 1) column

/-- **Masks are code.** A masked text has lines of the same lengths, and each of its characters is
the one that stood there if that was code, and otherwise a space. Its scan has only spans of code
and reports nothing, and masking it again changes nothing. -/
theorem mask_account (text : List Char) :
    (Line.split (masked text)).map List.length = (Line.split text).map List.length ∧
    (∀ line column, Line.charAt? (Line.split (masked text)) line column =
      (Line.charAt? (Line.split text) line column).map fun char =>
        if Span.InCode (ofText text).spans line column then char else ' ') ∧
    (∀ span ∈ (ofText (masked text)).spans, span.region = .code) ∧
    (ofText (masked text)).findings = [] ∧
    (ofText (masked text)).code = (ofText text).code :=
  ⟨map_length_split_masked text, charAt?_masked text, fun _ => region_of_mem_spans_masked text,
    findings_masked text, code_masked text⟩

end Scan

end EditGate.Lua

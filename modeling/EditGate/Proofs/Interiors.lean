import EditGate.Proofs.Scanning
import EditGate.Report
import Mathlib

/-!
# The interiors of strings and comments

Each character of a text has a role. It is code or part of a mark, or it is inside a string, a
long bracket or a comment. The characters inside can be replaced by any others that end nothing
and open nothing: then every piece stays where it is, and since all later analyses read the code
alone, their verdict stays the same.

The scan decides the roles, and what it sees next is always code or a mark. So it cannot tell
the two texts apart up to the next interior, which it searches for an end and does not otherwise
look at.
-/

namespace EditGate.Lua

/-! ## Roles -/

/-- What a character of a text is. -/
inductive Role where
  /-- Code, or part of a mark: a quote, the hyphens of a comment, the opener or the closer of a
  long bracket. -/
  | fixed
  /-- Inside a short string with the given quote. -/
  | inString (quote : Char)
  /-- Inside a long bracket. -/
  | inBracket
  /-- Right behind the hyphens of a line comment. -/
  | behindHyphens
  /-- Further inside a line comment. -/
  | inComment
deriving DecidableEq, Repr

/-- Whether a character may take the place of another in a role. -/
def Role.Admits : (role : Role) → (old new : Char) → Prop
  | fixed, old, new => new = old
  | inString quote, _, new => new ≠ quote ∧ new ≠ '\\'
  | inBracket, _, new => new ≠ ']'
  | behindHyphens, _, new => new ≠ '['
  | inComment, _, _ => True

instance Role.decidableAdmits : (role : Role) → (old new : Char) → Decidable (role.Admits old new)
  | fixed, old, new => inferInstanceAs (Decidable (new = old))
  | inString quote, _, new => inferInstanceAs (Decidable (new ≠ quote ∧ new ≠ '\\'))
  | inBracket, _, new => inferInstanceAs (Decidable (new ≠ ']'))
  | behindHyphens, _, new => inferInstanceAs (Decidable (new ≠ '['))
  | inComment, _, _ => isTrue trivial

/-- The roles of a stretch of characters with a mark at either end. -/
def framed (opener closer : Nat) (inside : Role) (length : Nat) : List Role :=
  List.replicate opener .fixed ++ List.replicate (length - opener - closer) inside ++
    List.replicate closer .fixed

theorem length_framed {opener closer length : Nat} (inside : Role)
    (fits : opener + closer ≤ length) : (framed opener closer inside length).length = length := by
  simp only [framed, List.length_append, List.length_replicate]
  omega

/-- The roles of the characters of a piece. A long bracket may have started on an earlier line,
and a string or a long bracket may have no end on this one. -/
def Piece.roles (starts ends : Bool) (piece : Piece) : List Role :=
  match piece.region with
  | .code => List.replicate piece.chars.length .fixed
  | .shortString =>
      framed 1 (if ends then 1 else 0) (.inString (piece.chars.headD '"')) piece.chars.length
  | .longBracket level isComment =>
      framed (if starts then longWidth level isComment else 0)
        (if ends then (longCloser level).length else 0) .inBracket piece.chars.length
  | .lineComment =>
      (.fixed :: .fixed :: .behindHyphens ::
        List.replicate piece.chars.length .inComment).take piece.chars.length

/-- The roles of the characters of pieces. Only the last piece of a line can lack its end. -/
def rolesOf (closed : Bool) : (starts : Bool) → List Piece → List Role
  | _, [] => []
  | starts, piece :: rest =>
      piece.roles starts (closed || !rest.isEmpty) ++ rolesOf closed true rest

namespace LineScan

/-- Whether neither a string nor a long bracket is open at the end of the line. -/
def isClosed (scan : LineScan) : Bool :=
  scan.openString.isNone && scan.carry.isNone

/-- The roles of the characters of a line, into which a long bracket may be carried. -/
def roles (carried : Bool) (scan : LineScan) : List Role :=
  rolesOf scan.isClosed (!carried) scan.pieces

end LineScan

/-- The roles of the characters of lines. -/
def rolesOfScans (carried : Bool) : List LineScan → List (List Role)
  | [] => []
  | scan :: rest => scan.roles carried :: rolesOfScans scan.carry.isSome rest

/-- The roles of the characters of a text, line by line. -/
def Scan.roles (scan : Scan) : List (List Role) :=
  rolesOfScans false scan.scans

/-! ## Texts with other interiors -/

/-- Whether characters may take the places of others, one by one in their roles. -/
def Refilled : List Role → (olds news : List Char) → Prop
  | [], [], [] => True
  | role :: roles, old :: olds, new :: news => role.Admits old new ∧ Refilled roles olds news
  | _, _, _ => False

/-- Whether lines may take the places of others. -/
def RefilledLines : List (List Role) → (olds news : List Line) → Prop
  | [], [], [] => True
  | roles :: rest, old :: olds, new :: news => Refilled roles old new ∧ RefilledLines rest olds news
  | _, _, _ => False

instance decidableRefilled : (roles : List Role) → (olds news : List Char) →
    Decidable (Refilled roles olds news)
  | [], [], [] => isTrue trivial
  | _ :: roles, _ :: olds, _ :: news =>
      have := decidableRefilled roles olds news
      inferInstanceAs (Decidable (_ ∧ _))
  | [], [], _ :: _ | [], _ :: _, _ | _ :: _, [], _ | _ :: _, _ :: _, [] => isFalse id

instance decidableRefilledLines : (roles : List (List Role)) → (olds news : List Line) →
    Decidable (RefilledLines roles olds news)
  | [], [], [] => isTrue trivial
  | _ :: roles, _ :: olds, _ :: news =>
      have := decidableRefilledLines roles olds news
      inferInstanceAs (Decidable (_ ∧ _))
  | [], [], _ :: _ | [], _ :: _, _ | _ :: _, [], _ | _ :: _, _ :: _, [] => isFalse id

/-- Whether a text differs from another only in the interiors of its strings and comments, and
these neither end nor open anything. Its lines then have the same lengths. -/
def Refills (text other : List Char) : Prop :=
  RefilledLines (Scan.ofText text).roles (Line.split text) (Line.split other)

namespace Refilled

variable {role inside : Role} {roles others : List Role} {olds news : List Char}

theorem eq_nil (refilled : Refilled [] [] news) : news = [] := by
  cases news with
  | nil => rfl
  | cons new news => exact refilled.elim

theorem exists_cons {old : Char} (refilled : Refilled (role :: roles) (old :: olds) news) :
    ∃ new rest, news = new :: rest ∧ role.Admits old new ∧ Refilled roles olds rest := by
  cases news with
  | nil => exact refilled.elim
  | cons new rest => exact ⟨new, rest, rfl, refilled.1, refilled.2⟩

/-- A character that is fixed stays. -/
theorem exists_fixed {old : Char} (refilled : Refilled (.fixed :: roles) (old :: olds) news) :
    ∃ rest, news = old :: rest ∧ Refilled roles olds rest := by
  obtain ⟨new, rest, rfl, same, later⟩ := refilled.exists_cons
  exact ⟨rest, congrArg (· :: rest) same, later⟩

theorem length_eq (refilled : Refilled roles olds news) : news.length = olds.length := by
  induction olds generalizing roles news with
  | nil =>
      cases roles with
      | nil => rw [refilled.eq_nil]
      | cons role roles => exact refilled.elim
  | cons old olds ih =>
      cases roles with
      | nil => exact refilled.elim
      | cons role roles =>
          obtain ⟨new, rest, rfl, -, later⟩ := refilled.exists_cons
          rw [List.length_cons, List.length_cons, ih later]

/-- Two stretches are refilled one after the other. -/
theorem exists_append {first second : List Char}
    (refilled : Refilled (roles ++ others) (first ++ second) news)
    (length : roles.length = first.length) :
    ∃ front back, news = front ++ back ∧ Refilled roles first front ∧
      Refilled others second back := by
  induction first generalizing roles news with
  | nil =>
      obtain rfl := List.length_eq_zero_iff.1 length
      exact ⟨[], news, rfl, trivial, refilled⟩
  | cons old rest ih =>
      cases roles with
      | nil => cases length
      | cons role roles =>
          obtain ⟨new, later, rfl, admits, refilled⟩ := refilled.exists_cons
          obtain ⟨front, back, rfl, inFront, behind⟩ := ih refilled (Nat.succ.inj length)
          exact ⟨new :: front, back, rfl, ⟨admits, inFront⟩, behind⟩

/-- A stretch of fixed characters stays. -/
theorem eq_of_fixed {count : Nat} (refilled : Refilled (List.replicate count .fixed) olds news) :
    news = olds := by
  induction count generalizing olds news with
  | zero =>
      cases olds with
      | nil => exact refilled.eq_nil
      | cons old olds => exact refilled.elim
  | succ count ih =>
      cases olds with
      | nil => exact refilled.elim
      | cons old olds =>
          obtain ⟨rest, rfl, later⟩ := exists_fixed refilled
          rw [ih later]

/-- Inside a stretch of one role, every character is admitted in it. -/
theorem exists_admits {count : Nat} (refilled : Refilled (List.replicate count role) olds news) :
    ∀ new ∈ news, ∃ old, role.Admits old new := by
  induction count generalizing olds news with
  | zero =>
      cases olds with
      | nil =>
          rw [refilled.eq_nil]
          exact fun _ found => absurd found List.not_mem_nil
      | cons old olds => exact refilled.elim
  | succ count ih =>
      cases olds with
      | nil => exact refilled.elim
      | cons old olds =>
          obtain ⟨new, rest, rfl, admits, later⟩ := exists_cons refilled
          exact List.forall_mem_cons.2 ⟨⟨old, admits⟩, ih later⟩

/-- Between its marks a stretch gets another interior of the same length. -/
theorem exists_framed {front inner back whole : List Char} {opener closer : Nat}
    (refilled : Refilled (framed opener closer inside whole.length) whole news)
    (split : whole = front ++ inner ++ back) (opens : front.length = opener)
    (closes : back.length = closer) :
    ∃ filling, news = front ++ filling ++ back ∧ filling.length = inner.length ∧
      ∀ new ∈ filling, ∃ old, inside.Admits old new := by
  subst split
  rw [framed] at refilled
  have middle : (front ++ inner ++ back).length - opener - closer = inner.length := by
    rw [List.length_append, List.length_append]
    omega
  rw [middle] at refilled
  obtain ⟨marked, last, rfl, earlier, ends⟩ := refilled.exists_append (by simp [opens])
  obtain ⟨first, filling, rfl, starts, fills⟩ := earlier.exists_append (by simp [opens])
  rw [starts.eq_of_fixed, ends.eq_of_fixed]
  exact ⟨filling, rfl, fills.length_eq, fills.exists_admits⟩

end Refilled

/-! ## The roles of what a scan cuts -/

section Roles

variable {line column : Nat} {char : Char} {rest : List Char}

theorem LineScan.roles_prependCode (char : Char) (scan : LineScan) :
    (scan.prependCode char).roles false = .fixed :: scan.roles false := by
  rcases scan.prependCode_cases char with ⟨chars, others, pieces, equal⟩ | equal
  · rw [equal]
    simp [roles, isClosed, pieces, rolesOf, Piece.roles, List.replicate_succ]
  · rw [equal]
    simp [roles, isClosed, rolesOf, Piece.roles]

/-- A scan from code that finds nothing more leaves nothing open. -/
theorem closed_or_pieces (line column : Nat) (chars : List Char) :
    ((scanCode line column chars).isClosed || !(scanCode line column chars).pieces.isEmpty) =
      true := by
  cases chars with
  | nil =>
      rw [scanCode_nil]
      rfl
  | cons char rest =>
      rw [Bool.or_eq_true, Bool.not_eq_true', List.isEmpty_eq_false_iff]
      right
      cases opens : opening? (char :: rest) with
      | none =>
          rw [scanCode_code opens]
          rcases (scanCode line (column + 1) rest).prependCode_cases char with
            ⟨_, _, _, equal⟩ | equal <;> simp [equal]
      | some opening =>
          cases opening with
          | lineComment => simp [scanCode_lineComment opens]
          | long level isComment =>
              cases cut : splitAfter? (longCloser level)
                  (rest.drop (longWidth level isComment - 1)) with
              | none => simp [scanCode_long_open opens cut]
              | some pair => simp [scanCode_long_closed opens cut, LineScan.prepend]
          | shortString quote =>
              cases closed : closeString? quote 0 rest with
              | none => simp [scanCode_string_open opens closed]
              | some pair => simp [scanCode_string_closed opens closed, LineScan.prepend]

/-- A piece that more code follows has its end. -/
theorem roles_prepend (carried : Bool) (piece : Piece) (line column : Nat) (after : List Char) :
    ((scanCode line column after).prepend piece).roles carried =
      piece.roles (!carried) true ++ (scanCode line column after).roles false := by
  have ends := closed_or_pieces line column after
  simp only [LineScan.isClosed] at ends
  simp only [LineScan.roles, LineScan.prepend, LineScan.isClosed, rolesOf, ends, Bool.not_false]

/-- Of a piece that more code follows, the marks stay and the interior is refilled, and so is what
follows. -/
theorem Refilled.exists_prepend {carried : Bool} {piece : Piece} {inside : Role}
    {front inner back after others : List Char}
    (refilled : Refilled (((scanCode line column after).prepend piece).roles carried)
      (piece.chars ++ after) others)
    (split : piece.chars = front ++ inner ++ back)
    (roles : piece.roles (!carried) true =
      framed front.length back.length inside piece.chars.length) :
    ∃ filling later, others = front ++ filling ++ back ++ later ∧
      filling.length = inner.length ∧ (∀ new ∈ filling, ∃ old, inside.Admits old new) ∧
      Refilled ((scanCode line column after).roles false) after later := by
  have fits : front.length + back.length ≤ piece.chars.length := by
    rw [split, List.length_append, List.length_append]
    omega
  rw [roles_prepend, roles] at refilled
  obtain ⟨whole, later, rfl, framing, behind⟩ := refilled.exists_append (length_framed inside fits)
  obtain ⟨filling, rfl, length, admitted⟩ := framing.exists_framed split rfl rfl
  exact ⟨filling, later, rfl, length, admitted, behind⟩

/-- What comes first in code is code or the start of a mark. -/
theorem head?_roles_scanCode_cons (line column : Nat) (char : Char) (rest : List Char) :
    ((scanCode line column (char :: rest)).roles false).head? = some .fixed := by
  cases opens : opening? (char :: rest) with
  | none =>
      rw [scanCode_code opens, LineScan.roles_prependCode]
      rfl
  | some opening =>
      cases opening with
      | lineComment =>
          rw [scanCode_lineComment opens]
          rfl
      | long level isComment =>
          obtain ⟨width, positive⟩ : ∃ width, longWidth level isComment = width + 1 :=
            ⟨level + 1 + if isComment then 2 else 0, by rw [longWidth]; omega⟩
          cases cut : splitAfter? (longCloser level)
              (rest.drop (longWidth level isComment - 1)) with
          | none =>
              rw [scanCode_long_open opens cut]
              simp [LineScan.roles, rolesOf, Piece.roles, framed, positive, List.replicate_succ]
          | some pair =>
              rw [scanCode_long_closed opens cut, roles_prepend]
              simp [Piece.roles, framed, positive, List.replicate_succ]
      | shortString quote =>
          cases closed : closeString? quote 0 rest with
          | none =>
              rw [scanCode_string_open opens closed]
              simp [LineScan.roles, rolesOf, Piece.roles, framed]
          | some pair =>
              rw [scanCode_string_closed opens closed, roles_prepend]
              simp [Piece.roles, framed]

end Roles

/-! ## What opens is seen in both texts -/

/-- Whether characters take the places of others, of which the first are in code. -/
def RefilledCode (olds news : List Char) : Prop :=
  ∃ line column, Refilled ((scanCode line column olds).roles false) olds news

namespace RefilledCode

variable {old : Char} {olds news : List Char}

theorem head?_eq (refilled : RefilledCode olds news) : news.head? = olds.head? := by
  obtain ⟨line, column, refilled⟩ := refilled
  cases olds with
  | nil =>
      rw [scanCode_nil] at refilled
      rw [Refilled.eq_nil refilled]
  | cons old olds =>
      obtain ⟨roles, first⟩ :=
        List.head?_eq_some_iff.1 (head?_roles_scanCode_cons line column old olds)
      rw [first] at refilled
      obtain ⟨rest, rfl, -⟩ := refilled.exists_fixed
      rfl

theorem exists_cons (refilled : RefilledCode (old :: olds) news)
    (opens : opening? (old :: olds) = none) :
    ∃ rest, news = old :: rest ∧ RefilledCode olds rest := by
  obtain ⟨line, column, refilled⟩ := refilled
  rw [scanCode_code opens, LineScan.roles_prependCode] at refilled
  obtain ⟨rest, rfl, later⟩ := refilled.exists_fixed
  exact ⟨rest, rfl, line, column + 1, later⟩

/-- Equals signs are code, so the first character behind them is fixed as well. -/
theorem longLevel?_eq (refilled : RefilledCode olds news) :
    longLevel? ('[' :: news) = longLevel? ('[' :: olds) := by
  have levels : (news.takeWhile (· == '=')).length = (olds.takeWhile (· == '=')).length ∧
      (news.dropWhile (· == '=')).head? = (olds.dropWhile (· == '=')).head? := by
    induction olds generalizing news with
    | nil =>
        have head := refilled.head?_eq
        rw [List.head?_nil, List.head?_eq_none_iff] at head
        rw [head]
        exact ⟨rfl, rfl⟩
    | cons old olds ih =>
        by_cases equals : old = '='
        · subst equals
          obtain ⟨rest, rfl, later⟩ := refilled.exists_cons (by simp [opening?])
          simpa using ih later
        · have head := refilled.head?_eq
          cases news with
          | nil => cases head
          | cons new news =>
              obtain rfl : new = old := Option.some.inj head
              simp [equals]
  have bracket : ∀ chars : List Char, longLevel? ('[' :: chars) =
      if (chars.dropWhile (· == '=')).head? = some '[' then
        some (chars.takeWhile (· == '=')).length else none := by
    intro chars
    rw [longLevel?]
    split
    next behind => rw [behind, List.head?_cons, if_pos rfl]
    next other =>
      rw [if_neg]
      intro head
      obtain ⟨tail, behind⟩ := List.head?_eq_some_iff.1 head
      exact other tail behind
  rw [bracket, bracket, levels.1, levels.2]

/-- Where nothing opens in one text, nothing opens in the other. -/
theorem opening?_eq_none (refilled : RefilledCode olds news)
    (opens : opening? (old :: olds) = none) : opening? (old :: news) = none := by
  have head := refilled.head?_eq
  by_cases hyphen : old = '-'
  · subst hyphen
    have noHyphen : ∀ tail, news ≠ '-' :: tail := by
      rintro tail rfl
      obtain ⟨others, rfl⟩ := List.head?_eq_some_iff.1 head.symm
      rw [opening?] at opens
      split at opens <;> cases opens
    rw [opening?]
    · simp
    · exact fun tail _ equal => noHyphen tail equal
    · exact fun equal => absurd equal (by decide)
  by_cases bracket : old = '['
  · subst bracket
    rw [opening?, Option.map_eq_none_iff] at opens ⊢
    rw [refilled.longLevel?_eq, opens]
  · -- Neither hyphens nor brackets are at stake, so the character alone decides.
    have alone : ∀ chars, opening? (old :: chars) =
        if old = '"' ∨ old = '\'' then some (.shortString old) else none := by
      intro chars
      rw [opening?]
      · exact fun tail equal => absurd equal hyphen
      · exact bracket
    rw [alone] at opens ⊢
    exact opens

end RefilledCode

/-! ## Searches for an end -/

/-- What is found ends with the pattern. -/
theorem exists_of_splitAfter? {pattern chars taken after : List Char}
    (found : splitAfter? pattern chars = some (taken, after)) :
    ∃ inner, taken = inner ++ pattern := by
  induction chars generalizing taken with
  | nil =>
      rw [splitAfter?] at found
      split at found
      next empty =>
        cases found
        exact ⟨[], by rw [List.isEmpty_iff.1 empty]; rfl⟩
      · cases found
  | cons char rest ih =>
      rw [splitAfter?] at found
      split at found
      · cases found
        exact ⟨[], rfl⟩
      · obtain ⟨⟨front, others⟩, later, equal⟩ := Option.map_eq_some_iff.1 found
        cases equal
        obtain ⟨inner, rfl⟩ := ih later
        exact ⟨char :: inner, rfl⟩

theorem exists_of_closeString? {quote : Char} {slashes : Nat} {chars taken after : List Char}
    (found : closeString? quote slashes chars = some (taken, after)) :
    ∃ inner, taken = inner ++ [quote] := by
  induction chars generalizing slashes taken with
  | nil => cases found
  | cons char rest ih =>
      rw [closeString?] at found
      split at found
      next ends =>
        cases found
        exact ⟨[], by rw [ends.1]; rfl⟩
      · obtain ⟨⟨front, others⟩, later, equal⟩ := Option.map_eq_some_iff.1 found
        cases equal
        obtain ⟨inner, rfl⟩ := ih later
        exact ⟨char :: inner, rfl⟩

theorem not_longCloser_isPrefixOf {level : Nat} {char : Char} {rest : List Char}
    (different : char ≠ ']') : (longCloser level).isPrefixOf (char :: rest) = false := by
  simp [longCloser, List.isPrefixOf, Ne.symm different]

/-- Without a square bracket that closes, nothing is found. -/
theorem splitAfter?_longCloser_eq_none {level : Nat} {chars : List Char}
    (absent : ∀ char ∈ chars, char ≠ ']') : splitAfter? (longCloser level) chars = none := by
  induction chars with
  | nil => simp [splitAfter?, longCloser]
  | cons char rest ih =>
      rw [List.forall_mem_cons] at absent
      rw [splitAfter?, not_longCloser_isPrefixOf absent.1, ih absent.2]
      rfl

/-- The first square bracket that closes starts the closer. -/
theorem splitAfter?_longCloser_append {level : Nat} {filling : List Char}
    (absent : ∀ char ∈ filling, char ≠ ']') (after : List Char) :
    splitAfter? (longCloser level) (filling ++ longCloser level ++ after) =
      some (filling ++ longCloser level, after) := by
  induction filling with
  | nil =>
      have closer : (longCloser level).isPrefixOf (longCloser level ++ after) = true :=
        List.isPrefixOf_iff_prefix.2 (List.prefix_append _ _)
      rw [List.nil_append]
      change splitAfter? (longCloser level) (']' :: (_ ++ after)) = _
      rw [splitAfter?]
      change (if (longCloser level).isPrefixOf (longCloser level ++ after) then _ else _) = _
      rw [if_pos closer]
      change some (longCloser level, (longCloser level ++ after).drop (longCloser level).length) = _
      rw [List.drop_left]
  | cons char rest ih =>
      rw [List.forall_mem_cons] at absent
      rw [List.cons_append, List.cons_append, splitAfter?, not_longCloser_isPrefixOf absent.1,
        ih absent.2]
      rfl

/-- Without a quote of its own, a string has no end. -/
theorem closeString?_eq_none {quote : Char} {chars : List Char}
    (absent : ∀ char ∈ chars, char ≠ quote) (slashes : Nat) :
    closeString? quote slashes chars = none := by
  induction chars generalizing slashes with
  | nil => rfl
  | cons char rest ih =>
      rw [List.forall_mem_cons] at absent
      rw [closeString?, if_neg fun ends => absent.1 ends.1, ih absent.2]
      rfl

/-- Without backslashes, the first quote ends a string. -/
theorem closeString?_append {quote : Char} {filling : List Char}
    (plain : ∀ char ∈ filling, char ≠ quote ∧ char ≠ '\\') (after : List Char) :
    closeString? quote 0 (filling ++ [quote] ++ after) = some (filling ++ [quote], after) := by
  induction filling with
  | nil => simp [closeString?]
  | cons char rest ih =>
      rw [List.forall_mem_cons] at plain
      rw [List.cons_append, List.cons_append, closeString?, if_neg fun ends => plain.1.1 ends.1,
        if_neg plain.1.2, ih plain.2]
      rfl

/-! ## Scans that look alike -/

/-- Pieces of one region and length, and of the same code. -/
structure Piece.Alike (first second : Piece) : Prop where
  region : second.region = first.region
  length : second.chars.length = first.chars.length
  code : first.region = .code → second.chars = first.chars

/-- Scans that differ only inside of strings and comments. -/
structure LineScan.Alike (first second : LineScan) : Prop where
  pieces : List.Forall₂ Piece.Alike first.pieces second.pieces
  openString : second.openString = first.openString
  carry : second.carry = first.carry

theorem Piece.Alike.refl (piece : Piece) : piece.Alike piece :=
  ⟨rfl, rfl, fun _ => rfl⟩

/-- Of what is not code only the length counts. -/
theorem Piece.Alike.of_length {region : Region} {chars others : List Char}
    (notCode : region ≠ .code) (length : others.length = chars.length) :
    Piece.Alike ⟨region, chars⟩ ⟨region, others⟩ :=
  ⟨rfl, length, fun isCode => absurd isCode notCode⟩

theorem Piece.Alike.mask {first second : Piece} (alike : first.Alike second) :
    second.mask = first.mask := by
  obtain ⟨region, chars⟩ := first
  obtain ⟨other, others⟩ := second
  obtain rfl : other = region := alike.region
  cases other with
  | code => exact alike.code rfl
  | shortString | lineComment | longBracket =>
      exact congrArg (List.replicate · ' ') alike.length

namespace LineScan.Alike

variable {first second : LineScan}

theorem prependCode (alike : first.Alike second) (char : Char) :
    (first.prependCode char).Alike (second.prependCode char) := by
  obtain ⟨pieces, openString, carry⟩ := first
  obtain ⟨others, openOther, carryOther⟩ := second
  obtain ⟨pieces, sameString, sameCarry⟩ := alike
  simp only at sameString sameCarry pieces
  refine ⟨?_, ?_, ?_⟩
  · cases pieces with
    | nil => exact .cons (.refl _) .nil
    | @cons piece other rest later same others =>
        obtain ⟨region, chars⟩ := piece
        obtain ⟨region', chars'⟩ := other
        obtain rfl : region' = region := same.region
        cases region' with
        | code =>
            obtain rfl : chars' = chars := same.code rfl
            exact .cons (.refl _) others
        | shortString | lineComment | longBracket => exact .cons (.refl _) (.cons same others)
  · rcases LineScan.prependCode_cases char ⟨_, openOther, carryOther⟩ with
      ⟨_, _, _, equal⟩ | equal <;>
    rcases LineScan.prependCode_cases char ⟨_, openString, carry⟩ with
      ⟨_, _, _, equal'⟩ | equal' <;> rw [equal, equal'] <;> exact sameString
  · rcases LineScan.prependCode_cases char ⟨_, openOther, carryOther⟩ with
      ⟨_, _, _, equal⟩ | equal <;>
    rcases LineScan.prependCode_cases char ⟨_, openString, carry⟩ with
      ⟨_, _, _, equal'⟩ | equal' <;> rw [equal, equal'] <;> exact sameCarry

theorem prepend (alike : first.Alike second) {piece other : Piece} (same : piece.Alike other) :
    (first.prepend piece).Alike (second.prepend other) :=
  ⟨.cons same alike.pieces, alike.openString, alike.carry⟩

theorem singleton {piece other : Piece} (same : piece.Alike other)
    (openString : Option (Char × Nat)) (carry : Option OpenBracket) :
    LineScan.Alike ⟨[piece], openString, carry⟩ ⟨[other], openString, carry⟩ :=
  ⟨.cons same .nil, rfl, rfl⟩

end LineScan.Alike

/-! ## What the scan makes of another interior -/

section Openers

variable {line column level : Nat} {isComment : Bool} {inner : List Char}

theorem exists_longOpener_cons (level : Nat) (isComment : Bool) :
    ∃ char rest, longOpener level isComment = char :: rest := by
  cases isComment with
  | false => exact ⟨_, _, rfl⟩
  | true => exact ⟨_, _, rfl⟩

/-- A long bracket opens behind its opener, whatever stands there. -/
theorem exists_opening_cons (level : Nat) (isComment : Bool) (inner : List Char) :
    ∃ char rest, longOpener level isComment ++ inner = char :: rest ∧
      opening? (char :: rest) = some (.long level isComment) ∧
      rest.drop (longWidth level isComment - 1) = inner := by
  obtain ⟨char, opener, starts⟩ := exists_longOpener_cons level isComment
  have width := length_longOpener level isComment
  rw [starts, List.length_cons] at width
  refine ⟨char, opener ++ inner, by rw [starts, List.cons_append], ?_, ?_⟩
  · rw [opening?_eq_long_iff, starts, ← List.cons_append]
    exact List.prefix_append _ _
  · rw [← width, Nat.add_sub_cancel, List.drop_left]

theorem scanCode_opener_open (uncut : splitAfter? (longCloser level) inner = none) :
    scanCode line column (longOpener level isComment ++ inner) =
      ⟨[⟨.longBracket level isComment, longOpener level isComment ++ inner⟩], none,
        some ⟨level, isComment, ⟨line, column⟩⟩⟩ := by
  obtain ⟨char, rest, whole, opens, behind⟩ := exists_opening_cons level isComment inner
  rw [← behind] at uncut
  rw [whole, scanCode_long_open opens uncut]

theorem scanCode_opener_closed {body after : List Char}
    (cut : splitAfter? (longCloser level) inner = some (body, after)) :
    scanCode line column (longOpener level isComment ++ inner) =
      (scanCode line (column + longWidth level isComment + body.length) after).prepend
        ⟨.longBracket level isComment, longOpener level isComment ++ body⟩ := by
  obtain ⟨char, rest, whole, opens, behind⟩ := exists_opening_cons level isComment inner
  rw [← behind] at cut
  rw [whole, scanCode_long_closed opens cut, ← whole, ← length_longOpener, List.take_left]

/-- In code, a long bracket is what its opener and a rest make. -/
theorem eq_longOpener_append {char : Char} {rest : List Char}
    (opens : opening? (char :: rest) = some (.long level isComment)) :
    char :: rest =
      longOpener level isComment ++ rest.drop (longWidth level isComment - 1) := by
  obtain ⟨inner, whole⟩ := opening?_eq_long_iff.1 opens
  obtain ⟨first, others, equal, -, behind⟩ := exists_opening_cons level isComment inner
  rw [whole, List.cons.injEq] at equal
  rw [← whole, equal.2, behind]

end Openers

theorem Refilled.not_bracket {front inner back whole news : List Char} {opener closer : Nat}
    (refilled : Refilled (framed opener closer .inBracket whole.length) whole news)
    (split : whole = front ++ inner ++ back) (opens : front.length = opener)
    (closes : back.length = closer) :
    ∃ filling, news = front ++ filling ++ back ∧ filling.length = inner.length ∧
      ∀ new ∈ filling, new ≠ ']' := by
  obtain ⟨filling, whole, length, admitted⟩ := refilled.exists_framed split opens closes
  exact ⟨filling, whole, length, fun new found => (admitted new found).choose_spec⟩

namespace LineScan.Alike

/-- A line comment stays one if no bracket comes to stand behind its hyphens. -/
theorem scanCode_lineComment {line column : Nat} {char : Char} {rest others : List Char}
    (opens : opening? (char :: rest) = some .lineComment)
    (refilled : Refilled ((scanCode line column (char :: rest)).roles false) (char :: rest)
      others) :
    (scanCode line column (char :: rest)).Alike (scanCode line column others) := by
  rw [Lua.scanCode_lineComment opens] at refilled ⊢
  obtain ⟨⟨tail, hyphens⟩, -⟩ := opening?_eq_lineComment_iff.1 opens
  rw [List.cons_append, List.singleton_append] at hyphens
  obtain ⟨rfl, rfl⟩ := List.cons.inj hyphens
  have length := refilled.length_eq
  obtain ⟨first, rfl, second⟩ := refilled.exists_fixed
  obtain ⟨behind, rfl, comment⟩ := second.exists_fixed
  have still : opening? ('-' :: '-' :: behind) = some .lineComment := by
    refine opening?_eq_lineComment_iff.2 ⟨⟨behind, rfl⟩, ?_⟩
    rintro level ⟨inner, whole⟩
    cases tail with
    | nil =>
        obtain rfl : behind = [] := comment.eq_nil
        exact absurd (congrArg List.length whole) (by simp [longOpener])
    | cons old olds =>
        obtain ⟨new, news, rfl, admits, -⟩ := comment.exists_cons
        obtain ⟨-, equal⟩ := List.cons.inj (List.cons.inj whole).2
        exact admits (List.cons.inj equal).1.symm
  rw [Lua.scanCode_lineComment still]
  exact .singleton (.of_length (by simp) length) none none

/-- A long bracket that is open at the end of its line stays so. -/
theorem scanCode_long_open {line column level : Nat} {isComment : Bool} {char : Char}
    {rest others : List Char} (opens : opening? (char :: rest) = some (.long level isComment))
    (uncut : splitAfter? (longCloser level) (rest.drop (longWidth level isComment - 1)) = none)
    (refilled : Refilled ((scanCode line column (char :: rest)).roles false) (char :: rest)
      others) :
    (scanCode line column (char :: rest)).Alike (scanCode line column others) := by
  have whole := eq_longOpener_append opens
  rw [whole, scanCode_opener_open uncut] at refilled ⊢
  have framing : Refilled (framed (longWidth level isComment) 0 .inBracket
      (longOpener level isComment ++ rest.drop (longWidth level isComment - 1)).length)
      (longOpener level isComment ++ rest.drop (longWidth level isComment - 1)) others := by
    simpa [roles, rolesOf, isClosed, Piece.roles] using refilled
  obtain ⟨filling, rfl, length, absent⟩ := framing.not_bracket (List.append_nil _).symm
    (length_longOpener level isComment) rfl
  rw [List.append_nil, scanCode_opener_open (splitAfter?_longCloser_eq_none absent)]
  refine .singleton (.of_length (by simp) ?_) none _
  rw [List.length_append, List.length_append, length]

/-- A string that is cut off by the end of its line stays so. -/
theorem scanCode_string_open {line column : Nat} {char quote : Char} {rest others : List Char}
    (opens : opening? (char :: rest) = some (.shortString quote))
    (unclosed : closeString? quote 0 rest = none)
    (refilled : Refilled ((scanCode line column (char :: rest)).roles false) (char :: rest)
      others) :
    (scanCode line column (char :: rest)).Alike (scanCode line column others) := by
  obtain ⟨isQuote, tail, start⟩ := opening?_eq_shortString_iff.1 opens
  rw [List.singleton_append] at start
  obtain ⟨rfl, rfl⟩ := List.cons.inj start
  rw [Lua.scanCode_string_open opens unclosed] at refilled ⊢
  have framing : Refilled (framed 1 0 (.inString quote) (quote :: tail).length)
      (quote :: tail) others := by
    simpa [roles, rolesOf, isClosed, Piece.roles] using refilled
  obtain ⟨filling, rfl, length, admitted⟩ := framing.exists_framed
    (show quote :: tail = [quote] ++ tail ++ [] by simp) rfl rfl
  have still : opening? (quote :: filling) = some (.shortString quote) :=
    opening?_eq_shortString_iff.2 ⟨isQuote, filling, rfl⟩
  have absent : ∀ new ∈ filling, new ≠ quote :=
    fun new found => (admitted new found).choose_spec.1
  rw [List.append_nil, List.singleton_append,
    Lua.scanCode_string_open still (closeString?_eq_none absent 0)]
  refine .singleton (.of_length (by simp) ?_) _ none
  rw [List.length_cons, List.length_cons, length]

/-- From code on, texts with other interiors are cut in the same way. -/
theorem scanCode (line column : Nat) (chars : List Char) {others : List Char}
    (refilled : Refilled ((scanCode line column chars).roles false) chars others) :
    (Lua.scanCode line column chars).Alike (Lua.scanCode line column others) := by
  induction column, chars using scanCode.induct generalizing others with
  | case1 column =>
      rw [scanCode_nil] at refilled
      rw [refilled.eq_nil, scanCode_nil]
      exact ⟨.nil, rfl, rfl⟩
  | case2 column char rest opens ih =>
      rw [scanCode_code opens, roles_prependCode] at refilled
      obtain ⟨later, rfl, behind⟩ := refilled.exists_fixed
      have still : opening? (char :: later) = none :=
        RefilledCode.opening?_eq_none ⟨line, column + 1, behind⟩ opens
      rw [scanCode_code opens, scanCode_code still]
      exact (ih behind).prependCode char
  | case3 column char rest opens => exact scanCode_lineComment opens refilled
  | case4 column char rest level isComment opens uncut =>
      exact scanCode_long_open opens uncut refilled
  | case5 column char rest level isComment opens body after cut ih =>
      have whole := eq_longOpener_append opens
      rw [whole, scanCode_opener_closed cut] at refilled ⊢
      rw [eq_append_of_splitAfter? cut, ← List.append_assoc] at refilled
      obtain ⟨inner, rfl⟩ := exists_of_splitAfter? cut
      obtain ⟨filling, later, rfl, length, admitted, behind⟩ := Refilled.exists_prepend refilled
        (List.append_assoc _ _ _).symm (by rw [length_longOpener]; rfl)
      have absent : ∀ new ∈ filling, new ≠ ']' :=
        fun new found => (admitted new found).choose_spec
      rw [List.append_assoc, List.append_assoc, ← List.append_assoc filling,
        scanCode_opener_closed (splitAfter?_longCloser_append absent later)]
      have sameLength : (filling ++ longCloser level).length =
          (inner ++ longCloser level).length := by
        rw [List.length_append, List.length_append, length]
      rw [sameLength]
      exact (ih behind).prepend (.of_length (by simp) (by simp [length]))
  | case6 column char rest quote opens unclosed =>
      exact scanCode_string_open opens unclosed refilled
  | case7 column char rest quote opens body after closed ih =>
      obtain ⟨isQuote, tail, start⟩ := opening?_eq_shortString_iff.1 opens
      rw [List.singleton_append] at start
      obtain ⟨rfl, rfl⟩ := List.cons.inj start
      rw [scanCode_string_closed opens closed] at refilled ⊢
      rw [eq_append_of_closeString? closed, ← List.cons_append] at refilled
      obtain ⟨inner, rfl⟩ := exists_of_closeString? closed
      obtain ⟨filling, later, rfl, length, admitted, behind⟩ := Refilled.exists_prepend refilled
        (show quote :: (inner ++ [quote]) = [quote] ++ inner ++ [quote] by simp) rfl
      have still : opening? (quote :: (filling ++ [quote] ++ later)) =
          some (.shortString quote) :=
        opening?_eq_shortString_iff.2 ⟨isQuote, _, rfl⟩
      have plain : ∀ new ∈ filling, new ≠ quote ∧ new ≠ '\\' :=
        fun new found => (admitted new found).choose_spec
      rw [List.append_assoc, List.append_assoc, ← List.append_assoc filling,
        List.singleton_append, scanCode_string_closed still (closeString?_append plain later)]
      have sameLength : (filling ++ [quote]).length = (inner ++ [quote]).length := by
        rw [List.length_append, List.length_append, length]
      rw [sameLength]
      exact (ih behind).prepend (.of_length (by simp) (by simp [length]))

/-- So are lines into which the same long bracket is carried. -/
theorem scanLine (line : Nat) (carry : Option OpenBracket) (chars : Line) {others : Line}
    (refilled : Refilled ((scanLine line carry chars).roles carry.isSome) chars others) :
    (Lua.scanLine line carry chars).Alike (Lua.scanLine line carry others) := by
  cases carry with
  | none => exact scanCode line 1 chars refilled
  | some bracket =>
      simp only [Lua.scanLine] at refilled ⊢
      cases cut : splitAfter? (longCloser bracket.level) chars with
      | none =>
          rw [cut] at refilled
          have length := refilled.length_eq
          cases chars with
          | nil =>
              obtain rfl : others = [] := refilled.eq_nil
              rw [cut]
              exact ⟨.nil, rfl, rfl⟩
          | cons char rest =>
              have framing : Refilled (framed 0 0 .inBracket (char :: rest).length)
                  (char :: rest) others := by
                simpa [roles, rolesOf, isClosed, Piece.roles] using refilled
              obtain ⟨filling, rfl, -, absent⟩ := framing.not_bracket
                (show char :: rest = [] ++ (char :: rest) ++ [] by simp) rfl rfl
              rw [List.nil_append, List.append_nil] at length ⊢
              rw [splitAfter?_longCloser_eq_none absent]
              obtain ⟨first, tail, rfl⟩ :=
                List.exists_cons_of_length_eq_add_one (length.trans List.length_cons)
              exact .singleton (.of_length (by simp) length) none _
      | some pair =>
          obtain ⟨body, after⟩ := pair
          rw [cut, eq_append_of_splitAfter? cut] at refilled
          obtain ⟨inner, rfl⟩ := exists_of_splitAfter? cut
          obtain ⟨filling, later, rfl, length, admitted, behind⟩ := Refilled.exists_prepend refilled
            (show inner ++ longCloser bracket.level = [] ++ inner ++ _ by simp) rfl
          have absent : ∀ new ∈ filling, new ≠ ']' :=
            fun new found => (admitted new found).choose_spec
          rw [List.nil_append, splitAfter?_longCloser_append absent]
          have sameLength : (filling ++ longCloser bracket.level).length =
              (inner ++ longCloser bracket.level).length := by
            rw [List.length_append, List.length_append, length]
          simp only [sameLength]
          exact (scanCode line _ after behind).prepend (.of_length (by simp) sameLength)

/-- And whole texts, line by line. -/
theorem scanLines (line : Nat) (carry : Option OpenBracket) (lines : List Line)
    {others : List Line}
    (refilled : RefilledLines (rolesOfScans carry.isSome (scanLines line carry lines))
      lines others) :
    List.Forall₂ LineScan.Alike (Lua.scanLines line carry lines)
      (Lua.scanLines line carry others) := by
  induction lines generalizing line carry others with
  | nil =>
      cases others with
      | nil => exact .nil
      | cons other others => exact refilled.elim
  | cons chars rest ih =>
      cases others with
      | nil => exact refilled.elim
      | cons other others =>
          have first := scanLine line carry chars refilled.1
          refine .cons first ?_
          rw [first.carry]
          exact ih (line + 1) _ refilled.2

/-! ## What is read off a scan -/

theorem code_eq {first second : LineScan} (alike : first.Alike second) :
    second.code = first.code := by
  have masks : ∀ {pieces others : List Piece}, List.Forall₂ Piece.Alike pieces others →
      others.flatMap Piece.mask = pieces.flatMap Piece.mask := by
    intro pieces others same
    induction same with
    | nil => rfl
    | cons piece rest ih => rw [List.flatMap_cons, List.flatMap_cons, piece.mask, ih]
  exact masks alike.pieces

end LineScan.Alike

section Views

variable {scans others : List LineScan}

theorem map_code_eq (alike : List.Forall₂ LineScan.Alike scans others) :
    others.map LineScan.code = scans.map LineScan.code := by
  induction alike with
  | nil => rfl
  | cons first rest ih => rw [List.map_cons, List.map_cons, first.code_eq, ih]

theorem Span.ofPieces_eq (line start : Nat) {pieces others : List Piece}
    (alike : List.Forall₂ Piece.Alike pieces others) :
    ofPieces line start others = ofPieces line start pieces := by
  induction alike generalizing start with
  | nil => rfl
  | cons first rest ih => rw [ofPieces, ofPieces, first.length, first.region, ih]

theorem Span.ofScans_eq (line : Nat) (alike : List.Forall₂ LineScan.Alike scans others) :
    ofScans line others = ofScans line scans := by
  induction alike generalizing line with
  | nil => rfl
  | cons first rest ih => rw [ofScans, ofScans, ofPieces_eq line 0 first.pieces, ih]

theorem openStrings_eq (line : Nat) (alike : List.Forall₂ LineScan.Alike scans others) :
    openStrings line others = openStrings line scans := by
  induction alike generalizing line with
  | nil => rfl
  | cons first rest ih => rw [openStrings, openStrings, first.openString, ih]

theorem map_carry_eq (alike : List.Forall₂ LineScan.Alike scans others) :
    others.map LineScan.carry = scans.map LineScan.carry := by
  induction alike with
  | nil => rfl
  | cons first rest ih => rw [List.map_cons, List.map_cons, first.carry, ih]

end Views

namespace Refills

variable {text other : List Char}

theorem alike (refills : Refills text other) :
    List.Forall₂ LineScan.Alike (Scan.ofText text).scans (Scan.ofText other).scans :=
  LineScan.Alike.scanLines 1 none (Line.split text) refills

theorem code_eq (refills : Refills text other) :
    (Scan.ofText other).code = (Scan.ofText text).code :=
  map_code_eq refills.alike

theorem spans_eq (refills : Refills text other) :
    (Scan.ofText other).spans = (Scan.ofText text).spans :=
  Span.ofScans_eq 1 refills.alike

theorem findings_eq (refills : Refills text other) :
    (Scan.ofText other).findings = (Scan.ofText text).findings := by
  have bracket : (Scan.ofText other).openBracket = (Scan.ofText text).openBracket := by
    have last := congrArg (·.getLast?.bind id) (map_carry_eq refills.alike)
    simpa [Scan.openBracket, List.getLast?_map, Option.bind_map] using last
  rw [Scan.findings, Scan.findings, openStrings_eq 1 refills.alike, bracket]

/-- The analyses read only the code and what the scan found. -/
theorem analysis_eq (refills : Refills text other) (rules : Option Lint.Rules) :
    Analysis.ofText rules other = Analysis.ofText rules text := by
  simp only [Analysis.ofText, refills.code_eq, refills.findings_eq]

end Refills

end EditGate.Lua

namespace EditGate

/-- What stands inside of strings and comments is inert: whatever takes its place without ending
or opening anything, the pieces of the text, the analyses and the verdict stay the same. -/
theorem Report.ofText_eq_of_refills {text other : List Char} (refills : Lua.Refills text other)
    (policy : Policy) :
    (Lua.Scan.ofText other).spans = (Lua.Scan.ofText text).spans ∧
      (Lua.Scan.ofText other).findings = (Lua.Scan.ofText text).findings ∧
      Analysis.ofText policy.rules other = Analysis.ofText policy.rules text ∧
      (ofText policy other).errors = (ofText policy text).errors ∧
      (ofText policy other).warnings = (ofText policy text).warnings := by
  have analysis := refills.analysis_eq policy.rules
  refine ⟨refills.spans_eq, refills.findings_eq, analysis, ?_, ?_⟩
  · rw [ofText, ofText, analysis]
  · rw [ofText, ofText, analysis]

namespace Sample

/-- A comment over two lines, strings of both kinds and one that is cut off. -/
def quoted : List Char :=
  "local a = \"x\\\"y\" --[==[ if ]]\n]=] ]==] f('(', [[do]]) -- ok\nb = 'cut".toList

/-- The same with words that open and close blocks, brackets and marks in the interiors. -/
def requoted : List Char :=
  "local a = \"end(\" --[==[ \"--[[\n  ' ]==] f('\"', [[[=]]) -- [[\nb = '[[)".toList

end Sample

theorem Report.ofText_requoted :
    Lua.Refills Sample.quoted Sample.requoted ∧ Sample.requoted ≠ Sample.quoted ∧
      (Lua.Scan.ofText Sample.requoted).spans = (Lua.Scan.ofText Sample.quoted).spans ∧
      (ofText ⟨true, none⟩ Sample.requoted).errors =
        (ofText ⟨true, none⟩ Sample.quoted).errors := by
  have refills : Lua.Refills Sample.quoted Sample.requoted := by
    unfold Lua.Refills
    decide +kernel
  have same := ofText_eq_of_refills refills ⟨true, none⟩
  exact ⟨refills, by decide +kernel, same.1, same.2.2.2.1⟩

end EditGate

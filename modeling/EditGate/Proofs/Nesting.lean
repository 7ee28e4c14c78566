import EditGate.Value.Reader
import Mathlib

/-!
# Nesting in JSON texts

The reader of JSON gives up on lists and objects that are nested too deeply. Each of them begins
with a bracket, and what a part of the text leaves to be read is the end of that text. So a text
with no more opening brackets than levels is never refused for its nesting.
-/

namespace EditGate.Value

/-! ## What is left to be read -/

theorem skipJsonBlanks_suffix (chars : List Char) : skipJsonBlanks chars <:+ chars :=
  List.dropWhile_suffix _

/-- What follows a character behind blanks. -/
theorem suffix_of_skipJsonBlanks {chars rest : List Char} {char : Char}
    (skipped : skipJsonBlanks chars = char :: rest) : rest <:+ chars :=
  (List.suffix_cons char rest).trans (skipped ▸ skipJsonBlanks_suffix chars)

theorem codeUnit?_suffix {chars rest : List Char} {unit : ℕ}
    (read : codeUnit? chars = some (unit, rest)) : rest <:+ chars := by
  fun_cases codeUnit? chars with
  | case1 first second third fourth more =>
      simp only [codeUnit?, Option.bind_eq_bind, Option.bind_eq_some_iff, Option.some.injEq,
        Prod.mk.injEq] at read
      obtain ⟨-, -, -, -, -, -, -, -, -, rfl⟩ := read
      exact ⟨[first, second, third, fourth], rfl⟩
  | case2 other => simp [codeUnit?] at read

theorem unitChar_suffix (unit : ℕ) (chars : List Char) : (unitChar unit chars).2 <:+ chars := by
  fun_cases unitChar unit chars with
  | case1 high more low after found paired =>
      exact (codeUnit?_suffix found).trans ⟨['\\', 'u'], rfl⟩
  | _ => exact List.suffix_refl _

/-- A character that is put in front of a string leaves the same to be read. -/
theorem exists_of_cons_eq_some {unit : Option Char} {body : Option (List (Option Char) × List Char)}
    {units : List (Option Char)} {rest : List Char}
    (read : (do let (units, rest) ← body; some (unit :: units, rest)) = some (units, rest)) :
    ∃ others, body = some (others, rest) := by
  obtain ⟨⟨others, behind⟩, found, same⟩ := Option.bind_eq_some_iff.1 read
  cases same
  exact ⟨others, found⟩

theorem stringBody?_suffix {fuel : ℕ} {chars rest : List Char} {units : List (Option Char)}
    (read : stringBody? fuel chars = some (units, rest)) : rest <:+ chars := by
  fun_induction stringBody? fuel chars generalizing units with
  | case1 => cases read
  | case2 => cases read
  | case3 fuel others =>
      cases read
      exact List.suffix_cons '"' rest
  | case4 fuel others ih =>
      obtain ⟨⟨unit, behind⟩, found, body⟩ := Option.bind_eq_some_iff.1 read
      obtain ⟨more, body⟩ := exists_of_cons_eq_some body
      have taken := (ih _ body).trans (unitChar_suffix unit behind)
      exact (taken.trans (codeUnit?_suffix found)).trans ⟨['\\', 'u'], rfl⟩
  | case5 fuel mark others _ ih =>
      obtain ⟨char, -, body⟩ := Option.bind_eq_some_iff.1 read
      obtain ⟨more, body⟩ := exists_of_cons_eq_some body
      exact (ih body).trans ⟨['\\', mark], rfl⟩
  | case6 => cases read
  | case7 fuel char others _ _ _ _ ih =>
      obtain ⟨more, body⟩ := exists_of_cons_eq_some read
      exact (ih body).trans (List.suffix_cons char others)

theorem takeDigits_suffix (chars : List Char) : (takeDigits chars).2 <:+ chars :=
  List.dropWhile_suffix _

theorem fraction?_suffix {chars digits rest : List Char}
    (read : fraction? chars = some (digits, rest)) : rest <:+ chars := by
  revert read
  fun_cases fraction? chars with
  | case1 => intro read; cases read
  | case2 others =>
      intro read
      cases read
      exact (takeDigits_suffix others).trans (List.suffix_cons '.' others)
  | case3 => intro read; cases read

theorem suffix_of_fraction? {chars digits rest : List Char}
    (found : (fraction? chars).getD ([], chars) = (digits, rest)) : rest <:+ chars := by
  cases fraction : fraction? chars with
  | none =>
      rw [fraction] at found
      cases found
      exact List.suffix_refl _
  | some taken =>
      rw [fraction] at found
      cases found
      exact fraction?_suffix fraction

theorem takeSign_suffix (chars : List Char) : (Text.takeSign chars).2 <:+ chars := by
  fun_cases Text.takeSign chars with
  | case1 rest => exact List.suffix_cons _ _
  | case2 rest => exact List.suffix_cons _ _
  | case3 => exact List.suffix_refl _

theorem power?_suffix {chars rest : List Char} {power : ℤ}
    (read : power? chars = some (power, rest)) : rest <:+ chars := by
  revert read
  fun_cases power? chars with
  | case2 mark others _ negative signless signed digits behind _ taken =>
      intro read
      cases read
      have digitless := takeDigits_suffix signless
      have behindSign := takeSign_suffix others
      rw [taken] at digitless
      rw [signed] at behindSign
      exact (digitless.trans behindSign).trans (List.suffix_cons mark others)
  | _ => intro read; cases read

theorem takeWhole_suffix (chars : List Char) : (takeWhole chars).2 <:+ chars := by
  fun_cases takeWhole chars with
  | case1 rest => exact List.suffix_cons '0' rest
  | case2 => exact takeDigits_suffix chars

theorem after?_suffix {beginning chars rest : List Char}
    (read : after? beginning chars = some rest) : rest <:+ chars := by
  fun_induction after? beginning chars with
  | case1 =>
    cases read
    exact List.suffix_refl _
  | case2 => cases read
  | case3 more char others ih => exact (ih read).trans (List.suffix_cons _ _)
  | case4 => cases read

/-! ## Levels -/

/-- The brackets that open a list or an object. -/
def isOpening (char : Char) : Bool :=
  char == '[' || char == '\x7b'

/-- How many brackets of a text open a list or an object. -/
def openings (chars : List Char) : ℕ :=
  chars.countP isOpening

theorem openings_le_of_suffix {chars rest : List Char} (suffix : rest <:+ chars) :
    openings rest ≤ openings chars :=
  suffix.sublist.countP_le

theorem openings_cons {bracket : Char} (opening : isOpening bracket = true) (chars : List Char) :
    openings (bracket :: chars) = openings chars + 1 :=
  List.countP_cons_of_pos opening

/-- How reading may end with some levels left: what is left to be read is the end of the text, and
only a text of more opening brackets than levels is nested too deeply. -/
def Fits {α : Type} (depth : ℕ) (chars : List Char) : Except ReadError (α × List Char) → Prop
  | .ok (_, rest) => rest <:+ chars
  | .error .tooDeep => depth < openings chars
  | .error _ => True

namespace Fits

variable {α β : Type} {depth : ℕ} {chars rest : List Char}
  {outcome : Except ReadError (α × List Char)}

theorem of_suffix (suffix : rest <:+ chars) (fits : Fits depth rest outcome) :
    Fits depth chars outcome := by
  match outcome, fits with
  | .ok _, left => exact left.trans suffix
  | .error .tooDeep, deep => exact Nat.lt_of_lt_of_le deep (openings_le_of_suffix suffix)
  | .error .malformed, _ => trivial
  | .error .tooManyDigits, _ => trivial
  | .error .halfPair, _ => trivial

theorem tooDeep {bracket : Char} (opening : isOpening bracket = true) (chars : List Char)
    (noLevel : depth = 0) :
    Fits depth (bracket :: chars) (.error .tooDeep : Except ReadError (α × List Char)) := by
  rw [Fits, noLevel, openings_cons opening]
  exact Nat.succ_pos _

/-- A bracket takes one level. -/
theorem of_opening {bracket : Char} (opening : isOpening bracket = true)
    (suffix : rest <:+ chars) (fits : Fits (depth - 1) rest outcome) :
    Fits depth (bracket :: chars) outcome := by
  match outcome, fits with
  | .ok _, left => exact (left.trans suffix).trans (List.suffix_cons bracket chars)
  | .error .tooDeep, deeper =>
      have more := openings_le_of_suffix suffix
      rw [Fits] at deeper ⊢
      rw [openings_cons opening]
      omega
  | .error .malformed, _ => trivial
  | .error .tooManyDigits, _ => trivial
  | .error .halfPair, _ => trivial

theorem bind {next : α × List Char → Except ReadError (β × List Char)}
    (first : Fits depth chars outcome)
    (further : ∀ value rest, Fits depth rest (next (value, rest))) :
    Fits depth chars (outcome >>= next) := by
  match outcome, first with
  | .ok (value, rest), left => exact (further value rest).of_suffix left
  | .error .tooDeep, deep => exact deep
  | .error .malformed, _ => trivial
  | .error .tooManyDigits, _ => trivial
  | .error .halfPair, _ => trivial

end Fits

theorem fits_readString (depth fuel : ℕ) (chars : List Char) :
    Fits depth chars (readString fuel chars) := by
  fun_cases readString fuel chars with
  | case1 => trivial
  | case2 units rest read text whole => exact stringBody?_suffix read
  | case3 => trivial

theorem fits_readNamed (depth : ℕ) (value : Value) (more : String) (chars : List Char) :
    Fits depth chars (readNamed value more chars) := by
  rw [readNamed]
  split
  next found => exact after?_suffix found
  next => trivial

theorem fits_readNumeral (depth : ℕ) (negative : Bool) (chars : List Char) :
    Fits depth chars (readNumeral negative chars) := by
  have behindWhole := takeWhole_suffix chars
  fun_cases readNumeral negative chars with
  | case1 => trivial
  | case2 whole others taken _ digits behind fraction power after powered =>
      rw [taken] at behindWhole
      exact ((power?_suffix powered).trans (suffix_of_fraction? fraction)).trans behindWhole
  | case3 whole others taken _ digits behind fraction =>
      rw [taken] at behindWhole
      exact (suffix_of_fraction? fraction).trans behindWhole
  | case4 => trivial
  | case5 whole others taken =>
      rw [taken] at behindWhole
      exact behindWhole

theorem fits_readScalar (depth : ℕ) (chars : List Char) : Fits depth chars (readScalar chars) := by
  rw [readScalar.eq_def]
  split
  · exact .of_suffix (List.suffix_cons _ _) (fits_readNamed depth _ _ _)
  · exact .of_suffix (List.suffix_cons _ _) (fits_readNamed depth _ _ _)
  · exact .of_suffix (List.suffix_cons _ _) (fits_readNamed depth _ _ _)
  · exact .of_suffix (List.suffix_cons _ _) (fits_readNamed depth _ _ _)
  · exact .of_suffix (List.suffix_cons _ _) (fits_readNamed depth _ _ _)
  · exact .of_suffix ⟨['-', 'I'], rfl⟩ (fits_readNamed depth _ _ _)
  · exact .of_suffix (List.suffix_cons _ _) (fits_readNumeral depth _ _)
  · exact fits_readNumeral depth _ _

mutual

theorem fits_readValue (depth : ℕ) :
    (fuel : ℕ) → (chars : List Char) → Fits depth chars (readValue depth fuel chars)
  | 0, _ => trivial
  | fuel + 1, chars => by
      rw [readValue.eq_def]
      split
      next => trivial
      next rest _ =>
        refine .of_suffix (List.suffix_cons _ _)
          ((fits_readString depth _ rest).bind fun text rest => ?_)
        exact List.suffix_refl rest
      next rest same =>
        obtain rfl := Nat.succ.inj same
        split
        next noLevel => exact .tooDeep rfl rest noLevel
        split
        next skipped => exact (suffix_of_skipJsonBlanks skipped).trans (List.suffix_cons _ _)
        next => exact .of_opening rfl (skipJsonBlanks_suffix rest) (fits_readItems _ fuel _ _)
      next rest same =>
        obtain rfl := Nat.succ.inj same
        split
        next noLevel => exact .tooDeep rfl rest noLevel
        split
        next skipped => exact (suffix_of_skipJsonBlanks skipped).trans (List.suffix_cons _ _)
        next => exact .of_opening rfl (skipJsonBlanks_suffix rest) (fits_readFields _ fuel _ _)
      next => exact fits_readScalar depth _

theorem fits_readItems (depth : ℕ) :
    (fuel : ℕ) → (found : List Value) → (chars : List Char) →
      Fits depth chars (readItems depth fuel found chars)
  | 0, _, _ => trivial
  | fuel + 1, found, chars => by
      rw [readItems]
      refine (fits_readValue depth fuel chars).bind fun item rest => ?_
      dsimp only
      split
      next more skipped =>
        have suffix := (skipJsonBlanks_suffix more).trans (suffix_of_skipJsonBlanks skipped)
        exact .of_suffix suffix (fits_readItems depth fuel _ _)
      next skipped => exact suffix_of_skipJsonBlanks skipped
      next => trivial

theorem fits_readFields (depth : ℕ) :
    (fuel : ℕ) → (found : List (String × Value)) → (chars : List Char) →
      Fits depth chars (readFields depth fuel found chars)
  | 0, _, _ => trivial
  | fuel + 1, found, chars => by
      rw [readFields.eq_def]
      split
      next => trivial
      next quoted same =>
        obtain rfl := Nat.succ.inj same
        refine .of_suffix (List.suffix_cons _ _)
          ((fits_readString depth fuel quoted).bind fun name named => ?_)
        dsimp only
        split
        next after colon =>
          apply Fits.of_suffix
            ((skipJsonBlanks_suffix after).trans (suffix_of_skipJsonBlanks colon))
          refine (fits_readValue depth fuel _).bind fun value rest => ?_
          dsimp only
          split
          next more skipped =>
            have suffix := (skipJsonBlanks_suffix more).trans (suffix_of_skipJsonBlanks skipped)
            exact .of_suffix suffix (fits_readFields depth fuel _ _)
          next skipped => exact suffix_of_skipJsonBlanks skipped
          next => trivial
        next => trivial
      next => trivial

end

/-- A text is nested too deeply only if it has more opening brackets than levels are allowed. -/
theorem lt_openings_of_tooDeep {nesting : ℕ} {chars : List Char}
    (deep : ofJsonChars nesting chars = .error .tooDeep) : nesting < openings chars := by
  have fits := fits_readValue nesting (2 * chars.length + 2) (skipJsonBlanks chars)
  rw [ofJsonChars] at deep
  split at deep
  next =>
    split at deep <;> cases deep
  next cause read =>
    cases deep
    rw [read] at fits
    exact fits.of_suffix (skipJsonBlanks_suffix chars)

end EditGate.Value

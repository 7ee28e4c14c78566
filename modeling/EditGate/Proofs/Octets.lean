import EditGate.Proofs.Json
import EditGate.Text.Utf8
import Mathlib

/-!
# Octets and the texts that they write

Reading octets as UTF-8 gives a text exactly if the octets are those that the text is written as.
So there is one way to write a text, and octets that cannot be read are written by no text.

A character and its octets are compared through the number that the leading octet and the octets
behind it make together. One lemma goes from the octets to the character, another one back.
-/

namespace EditGate.Utf8

/-! ## Octets as numbers -/

theorem toUInt8_eq {number : ℕ} {octet : UInt8} (same : number = octet.toNat) :
    number.toUInt8 = octet := by
  rw [same]
  exact UInt8.ofNat_toNat

theorem toNat_toUInt8 {number : ℕ} (small : number < 0x100) : number.toUInt8.toNat = number := by
  rw [Nat.toUInt8, UInt8.toNat_ofNat']
  exact Nat.mod_eq_of_lt small

/-- The leading octets, by how many octets follow them. The first of these is bounded more narrowly
behind the least and the greatest leading octets. -/
theorem lead?_eq_some_iff {octet : UInt8} {lead : Lead} :
    lead? octet = some lead ↔
      (0xc2 ≤ octet.toNat ∧ octet.toNat ≤ 0xdf ∧ lead = ⟨octet.toNat - 0xc0, 1, 0x80, 0xbf⟩) ∨
      (0xe0 ≤ octet.toNat ∧ octet.toNat ≤ 0xef ∧
        lead = ⟨octet.toNat - 0xe0, 2, if octet.toNat = 0xe0 then 0xa0 else 0x80,
          if octet.toNat = 0xed then 0x9f else 0xbf⟩) ∨
      (0xf0 ≤ octet.toNat ∧ octet.toNat ≤ 0xf4 ∧
        lead = ⟨octet.toNat - 0xf0, 3, if octet.toNat = 0xf0 then 0x90 else 0x80,
          if octet.toNat = 0xf4 then 0x8f else 0xbf⟩) := by
  simp only [lead?]
  grind

/-- An octet that continues a character lies in its range and brings six bits. -/
theorem continuation_succ_eq_ok_iff {bits following low high code : ℕ} {octets : List UInt8} :
    continuation bits (following + 1) low high octets = .ok code ↔
      ∃ octet rest, octets = octet :: rest ∧ low ≤ octet.toNat ∧ octet.toNat ≤ high ∧
        continuation (bits * 0x40 + octet.toNat % 0x40) following 0x80 0xbf rest = .ok code := by
  cases octets with
  | nil => simp [continuation]
  | cons octet rest =>
      rw [continuation]
      split
      next fits =>
        split
        next found => simp [fits, found]
        next found => simp [found]
      next unfit => simp; omega

/-! ## Single characters -/

theorem toNat_ofNat {code : ℕ} (single : code < 0xd800 ∨ 0xe000 ≤ code ∧ code < 0x110000) :
    (Char.ofNat code).toNat = code := by
  have valid : code.isValidChar := by
    rcases single with low | ⟨least, most⟩
    · exact Or.inl low
    · exact Or.inr ⟨by omega, most⟩
  rw [Char.toNat_ofNat, if_pos valid]

section Written

variable {code : ℕ} {first second third fourth : UInt8}

theorem encodeChar_one (small : code < 0x80) (is_first : code = first.toNat) :
    encodeChar (Char.ofNat code) = [first] := by
  rw [encodeChar, toNat_ofNat (by omega), if_pos small, toUInt8_eq is_first]

theorem encodeChar_two (least : 0x80 ≤ code) (most : code < 0x800)
    (is_first : 0xc0 + code / 0x40 = first.toNat)
    (is_second : 0x80 + code % 0x40 = second.toNat) :
    encodeChar (Char.ofNat code) = [first, second] := by
  rw [encodeChar, toNat_ofNat (by omega), if_neg (by omega), if_pos most, toUInt8_eq is_first,
    toUInt8_eq is_second]

theorem encodeChar_three (least : 0x800 ≤ code) (most : code < 0x10000)
    (single : code < 0xd800 ∨ 0xe000 ≤ code) (is_first : 0xe0 + code / 0x1000 = first.toNat)
    (is_second : 0x80 + code / 0x40 % 0x40 = second.toNat)
    (is_third : 0x80 + code % 0x40 = third.toNat) :
    encodeChar (Char.ofNat code) = [first, second, third] := by
  rw [encodeChar, toNat_ofNat (by omega), if_neg (by omega), if_neg (by omega), if_pos most,
    toUInt8_eq is_first, toUInt8_eq is_second, toUInt8_eq is_third]

theorem encodeChar_four (least : 0x10000 ≤ code) (most : code < 0x110000)
    (is_first : 0xf0 + code / 0x40000 = first.toNat)
    (is_second : 0x80 + code / 0x1000 % 0x40 = second.toNat)
    (is_third : 0x80 + code / 0x40 % 0x40 = third.toNat)
    (is_fourth : 0x80 + code % 0x40 = fourth.toNat) :
    encodeChar (Char.ofNat code) = [first, second, third, fourth] := by
  rw [encodeChar, toNat_ofNat (by omega), if_neg (by omega), if_neg (by omega), if_neg (by omega),
    toUInt8_eq is_first, toUInt8_eq is_second, toUInt8_eq is_third, toUInt8_eq is_fourth]

end Written

/-- A leading octet and those that continue it are the octets of a character. -/
theorem encodeChar_of_continuation {octet : UInt8} {octets : List UInt8} {lead : Lead} {code : ℕ}
    (leads : lead? octet = some lead)
    (continued : continuation lead.bits lead.following lead.low lead.high octets = .ok code) :
    encodeChar (Char.ofNat code) ++ octets.drop lead.following = octet :: octets := by
  rcases lead?_eq_some_iff.1 leads with ⟨least, most, rfl⟩ | ⟨least, most, rfl⟩ | ⟨least, most, rfl⟩
  · obtain ⟨second, rest, rfl, low, high, finished⟩ := continuation_succ_eq_ok_iff.1 continued
    obtain rfl := Except.ok.inj finished
    simp only at low high ⊢
    rw [@encodeChar_two _ octet second (by omega) (by omega) (by omega) (by omega)]
    rfl
  · obtain ⟨second, rest, rfl, low, high, further⟩ := continuation_succ_eq_ok_iff.1 continued
    obtain ⟨third, rest, rfl, lowThird, highThird, finished⟩ :=
      continuation_succ_eq_ok_iff.1 further
    obtain rfl := Except.ok.inj finished
    simp only at low high ⊢
    have least_second : 0x80 ≤ second.toNat ∧ (octet.toNat = 0xe0 → 0xa0 ≤ second.toNat) := by
      split at low <;> omega
    have most_second : second.toNat ≤ 0xbf ∧ (octet.toNat = 0xed → second.toNat ≤ 0x9f) := by
      split at high <;> omega
    rw [@encodeChar_three _ octet second third (by omega) (by omega) (by omega) (by omega)
      (by omega) (by omega)]
    rfl
  · obtain ⟨second, rest, rfl, low, high, further⟩ := continuation_succ_eq_ok_iff.1 continued
    obtain ⟨third, rest, rfl, lowThird, highThird, more⟩ := continuation_succ_eq_ok_iff.1 further
    obtain ⟨fourth, rest, rfl, lowFourth, highFourth, finished⟩ :=
      continuation_succ_eq_ok_iff.1 more
    obtain rfl := Except.ok.inj finished
    simp only at low high ⊢
    have least_second : 0x80 ≤ second.toNat ∧ (octet.toNat = 0xf0 → 0x90 ≤ second.toNat) := by
      split at low <;> omega
    have most_second : second.toNat ≤ 0xbf ∧ (octet.toNat = 0xf4 → second.toNat ≤ 0x8f) := by
      split at high <;> omega
    rw [@encodeChar_four _ octet second third fourth (by omega) (by omega) (by omega) (by omega)
      (by omega) (by omega)]
    rfl

/-- The octets of a character outside ASCII are a leading octet and those that continue it. -/
theorem exists_lead_of_encodeChar {char : Char} (outside : 0x80 ≤ char.toNat) :
    ∃ octet octets lead, encodeChar char = octet :: octets ∧ 0x80 ≤ octet.toNat ∧
      lead? octet = some lead ∧ lead.following = octets.length ∧
      ∀ rest, continuation lead.bits lead.following lead.low lead.high (octets ++ rest) =
        .ok char.toNat := by
  have single := Value.toNat_lt_or_lt char
  have most := Value.toNat_lt char
  rw [encodeChar, if_neg (by omega)]
  generalize char.toNat = code at *
  -- the last six bits of the number are those of the last octet
  have finished : ∀ {bits low high : ℕ} (rest : List UInt8), bits = code →
      continuation bits 0 low high rest = .ok code := by
    intro bits low high rest same
    rw [continuation, same]
  have last := @toNat_toUInt8 (0x80 + code % 0x40) (by omega)
  have beforeLast := @toNat_toUInt8 (0x80 + code / 0x40 % 0x40) (by omega)
  split
  next two =>
    have first := @toNat_toUInt8 (0xc0 + code / 0x40) (by omega)
    refine ⟨_, _, _, rfl, by omega, lead?_eq_some_iff.2 (.inl ⟨by omega, by omega, rfl⟩), rfl, ?_⟩
    intro rest
    dsimp only
    refine continuation_succ_eq_ok_iff.2 ⟨_, _, rfl, by omega, by omega, ?_⟩
    exact finished _ (by omega)
  split
  next three =>
    have first := @toNat_toUInt8 (0xe0 + code / 0x1000) (by omega)
    refine ⟨_, _, _, rfl, by omega, lead?_eq_some_iff.2 (.inr (.inl ⟨by omega, by omega, rfl⟩)),
      rfl, ?_⟩
    intro rest
    dsimp only
    refine continuation_succ_eq_ok_iff.2 ⟨_, _, rfl, by split <;> omega, by split <;> omega, ?_⟩
    refine continuation_succ_eq_ok_iff.2 ⟨_, _, rfl, by omega, by omega, ?_⟩
    exact finished _ (by omega)
  next four =>
    have first := @toNat_toUInt8 (0xf0 + code / 0x40000) (by omega)
    have second := @toNat_toUInt8 (0x80 + code / 0x1000 % 0x40) (by omega)
    refine ⟨_, _, _, rfl, by omega, lead?_eq_some_iff.2 (.inr (.inr ⟨by omega, by omega, rfl⟩)),
      rfl, ?_⟩
    intro rest
    dsimp only
    refine continuation_succ_eq_ok_iff.2 ⟨_, _, rfl, by split <;> omega, by split <;> omega, ?_⟩
    refine continuation_succ_eq_ok_iff.2 ⟨_, _, rfl, by omega, by omega, ?_⟩
    refine continuation_succ_eq_ok_iff.2 ⟨_, _, rfl, by omega, by omega, ?_⟩
    exact finished _ (by omega)

theorem decodeFrom_encodeChar_append (position : ℕ) (char : Char) (rest : List UInt8) :
    decodeFrom position (encodeChar char ++ rest) =
      (decodeFrom (position + (encodeChar char).length) rest).map (char :: ·) := by
  by_cases ascii : char.toNat < 0x80
  · have octet := @toNat_toUInt8 char.toNat (by omega)
    rw [encodeChar, if_pos ascii, List.singleton_append, decodeFrom, octet, if_pos ascii,
      Char.ofNat_toNat]
    rfl
  · obtain ⟨octet, octets, lead, octets_eq, outside, leads, following, continued⟩ :=
      exists_lead_of_encodeChar (by omega : 0x80 ≤ char.toNat)
    rw [octets_eq, List.cons_append, decodeFrom, if_neg (by omega), leads]
    simp only [continued]
    rw [following, List.drop_left, Char.ofNat_toNat, List.length_cons, Nat.add_right_comm,
      Nat.add_assoc]

/-! ## Texts -/

theorem decodeFrom_encode (position : ℕ) (text : List Char) :
    decodeFrom position (encode text) = .ok text := by
  induction text generalizing position with
  | nil => rw [encode, List.flatMap_nil, decodeFrom]
  | cons char text ih =>
      rw [encode, List.flatMap_cons, decodeFrom_encodeChar_append, ← encode, ih]
      rfl

theorem decode_encode (text : List Char) : decode (encode text) = .ok text :=
  decodeFrom_encode 0 text

theorem encode_of_decodeFrom {position : ℕ} {octets : List UInt8} {text : List Char}
    (decoded : decodeFrom position octets = .ok text) : encode text = octets := by
  fun_induction decodeFrom position octets generalizing text with
  | case1 =>
      rw [← Except.ok.inj decoded]
      rfl
  | case2 position octet octets ascii ih =>
      cases found : decodeFrom (position + 1) octets with
      | error fault => rw [found] at decoded; cases decoded
      | ok others =>
          rw [found] at decoded
          rw [← Except.ok.inj decoded, encode, List.flatMap_cons, ← encode, ih found,
            encodeChar_one ascii rfl, List.singleton_append]
  | case3 => cases decoded
  | case4 position octet octets outside lead leads code continued ih =>
      cases found : decodeFrom (position + 1 + lead.following) (octets.drop lead.following) with
      | error fault => rw [found] at decoded; cases decoded
      | ok others =>
          rw [found] at decoded
          rw [← Except.ok.inj decoded, encode, List.flatMap_cons, ← encode, ih found,
            encodeChar_of_continuation leads continued]
  | case5 => cases decoded

theorem encode_injective : Function.Injective encode := by
  intro text other same
  have decoded := decode_encode text
  rw [same, decode_encode] at decoded
  exact (Except.ok.inj decoded).symm

/-- Octets are read as a text exactly if they are what the text is written as. -/
theorem decode_eq_ok_iff {octets : List UInt8} {text : List Char} :
    decode octets = .ok text ↔ encode text = octets := by
  constructor
  · exact encode_of_decodeFrom
  · rintro rfl
    exact decode_encode text

end EditGate.Utf8

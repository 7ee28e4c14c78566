import EditGate.Proofs.Decimals
import EditGate.Value.Json
import EditGate.Value.Reader
import Mathlib

/-!
# Numerals that read back

A whole number is written with its digits and read back from them, as long as there are not too
many. A floating-point number is written as its shortest decimal, in one of four shapes. Each of
them tells a reader the digits, how many of them stand behind the point, and a power of ten; these
make the value of the decimal, and so the number.
-/

namespace EditGate.Value

/-! ## Digits -/

/-- Whether a run of digits ends in front of what follows. -/
def EndsDigits (rest : List Char) : Prop :=
  ∀ char ∈ rest.head?, char.isDigit = false

/-- Whether a numeral ends in front of what follows. -/
def EndsNumeral (rest : List Char) : Prop :=
  ∀ char ∈ rest.head?, char.isDigit = false ∧ char ≠ '.' ∧ char ≠ 'e' ∧ char ≠ 'E'

theorem EndsNumeral.endsDigits {rest : List Char} (ends : EndsNumeral rest) : EndsDigits rest :=
  fun char first => (ends char first).1

/-- Digits that may stand before a point: a zero stands alone. -/
structure IsWhole (chars : List Char) : Prop where
  nonempty : chars ≠ []
  digits : ∀ char ∈ chars, char.isDigit = true
  lead : chars.head? = some '0' → chars = ['0']

theorem ofDigitChars_eq (digits : List Char) :
    ofDigitChars digits = Nat.ofDigitChars 10 digits 0 := by
  rw [ofDigitChars, Text.ofDigits, List.foldl_map, Nat.ofDigitChars_eq_foldl]
  simp only [Nat.mul_comm]

theorem ofDigitChars_append (first second : List Char) :
    ofDigitChars (first ++ second) =
      ofDigitChars first * 10 ^ second.length + ofDigitChars second := by
  rw [ofDigitChars_eq, Nat.ofDigitChars_append, Nat.ofDigitChars_eq_ofDigitChars_zero,
    ← ofDigitChars_eq, ← ofDigitChars_eq, Nat.mul_comm]

theorem ofDigitChars_replicate_zero (count : ℕ) :
    ofDigitChars (List.replicate count '0') = 0 := by
  induction count with
  | zero => rfl
  | succ count ih =>
      rw [List.replicate_succ', ofDigitChars_append, ih, Nat.zero_mul]
      rfl

theorem ofDigitChars_cons_zero (digits : List Char) :
    ofDigitChars ('0' :: digits) = ofDigitChars digits := by
  rw [← List.singleton_append, ofDigitChars_append]
  simp [ofDigitChars, Text.ofDigits]

theorem ofDigitChars_toDigits (number : ℕ) : ofDigitChars (Nat.toDigits 10 number) = number := by
  rw [ofDigitChars_eq, Nat.ofDigitChars_ten_toDigits]

theorem isDigit_of_mem_toDigits {number : ℕ} {char : Char}
    (found : char ∈ Nat.toDigits 10 number) : char.isDigit = true :=
  Nat.isDigit_of_mem_toDigits (by decide) (by decide) found

/-- No positive number is written with a zero in front. -/
theorem head?_toDigits_ne_zero {number : ℕ} (positive : 0 < number) :
    (Nat.toDigits 10 number).head? ≠ some '0' := by
  induction number using Nat.strong_induction_on with
  | _ number ih =>
      rw [Nat.toDigits_eq_if (by decide)]
      split
      next small =>
        interval_cases number <;> decide
      next large =>
        have nonempty : Nat.toDigits 10 (number / 10) ≠ [] := Nat.toDigits_ne_nil
        rw [List.head?_append_of_ne_nil _ nonempty]
        exact ih (number / 10) (by omega) (by omega)

/-- A number is written as it may stand before a point. -/
theorem isWhole_toDigits (number : ℕ) : IsWhole (Nat.toDigits 10 number) where
  nonempty := Nat.toDigits_ne_nil
  digits _ found := isDigit_of_mem_toDigits found
  lead zero := by
    obtain rfl | positive := Nat.eq_zero_or_pos number
    · rfl
    · exact absurd zero (head?_toDigits_ne_zero positive)

section Reading

variable {digits fraction rest : List Char}

theorem takeDigits_append (all : ∀ char ∈ digits, char.isDigit = true) (ends : EndsDigits rest) :
    takeDigits (digits ++ rest) = (digits, rest) := by
  rw [takeDigits, List.takeWhile_append_of_pos all, List.dropWhile_append_of_pos all]
  cases rest with
  | nil => simp
  | cons char rest =>
      have other := ends char rfl
      simp [other]

theorem takeWhole_append (whole : IsWhole digits) (ends : EndsDigits rest) :
    takeWhole (digits ++ rest) = (digits, rest) := by
  obtain ⟨char, others, rfl⟩ := List.exists_cons_of_ne_nil whole.nonempty
  by_cases zero : char = '0'
  · subst zero
    obtain ⟨-, rfl⟩ := List.cons.inj (whole.lead rfl)
    rfl
  · rw [← takeDigits_append whole.digits ends]
    rw [takeWhole]
    exact fun tail equal => zero (List.cons.inj equal).1

theorem fraction?_append (nonempty : fraction ≠ [])
    (all : ∀ char ∈ fraction, char.isDigit = true) (ends : EndsDigits rest) :
    fraction? ('.' :: (fraction ++ rest)) = some (fraction, rest) := by
  rw [fraction?, takeDigits_append all ends]
  obtain ⟨char, others, rfl⟩ := List.exists_cons_of_ne_nil nonempty
  rfl

theorem fraction?_of_ne (other : rest.head? ≠ some '.') : fraction? rest = none := by
  rw [fraction?]
  rintro tail rfl
  exact other rfl

theorem power?_of_endsNumeral (ends : EndsNumeral rest) : power? rest = none := by
  cases rest with
  | nil => rfl
  | cons char rest =>
      obtain ⟨-, -, small, large⟩ := ends char rfl
      rw [power?, if_neg]
      rintro (isSmall | isLarge)
      · exact small isSmall
      · exact large isLarge

/-- The sign of a power as it is written. -/
def powerSign (negative : Bool) : Char :=
  if negative then '-' else '+'

theorem power?_append (negative : Bool) (nonempty : digits ≠ [])
    (all : ∀ char ∈ digits, char.isDigit = true) (ends : EndsDigits rest) :
    power? ('e' :: powerSign negative :: (digits ++ rest)) =
      some (if negative then -(ofDigitChars digits : ℤ) else ofDigitChars digits, rest) := by
  have sign : Text.takeSign (powerSign negative :: (digits ++ rest)) =
      (negative, digits ++ rest) := by
    cases negative <;> rfl
  obtain ⟨char, others, rfl⟩ := List.exists_cons_of_ne_nil nonempty
  rw [power?, if_pos (Or.inl rfl), sign]
  simp only [takeDigits_append all ends]

/-- Digits without point or power are a whole number. -/
theorem readNumeral_whole (negative : Bool) (whole : IsWhole digits)
    (few : digits.length ≤ Text.maxDigits) (ends : EndsNumeral rest) :
    readNumeral negative (digits ++ rest) =
      .ok (.int (if negative then -(ofDigitChars digits : ℤ) else ofDigitChars digits), rest) := by
  have point : fraction? rest = none :=
    fraction?_of_ne fun point => (ends '.' point).2.1 rfl
  simp only [readNumeral, takeWhole_append whole ends.endsDigits, List.isEmpty_eq_false_iff.2
    whole.nonempty, point, Option.getD_none, power?_of_endsNumeral ends, List.isEmpty_nil]
  rw [if_neg (by decide), if_neg (by decide), if_neg (not_lt.2 few)]

/-- Digits with a point are a floating-point number. -/
theorem readNumeral_fraction (negative : Bool) (whole : IsWhole digits) (nonempty : fraction ≠ [])
    (all : ∀ char ∈ fraction, char.isDigit = true) (ends : EndsNumeral rest) :
    readNumeral negative (digits ++ '.' :: (fraction ++ rest)) =
      .ok (.float (.ofDecimal negative (ofDigitChars (digits ++ fraction)) (-fraction.length)),
        rest) := by
  have point : EndsDigits ('.' :: (fraction ++ rest)) := by
    rintro char ⟨⟩
    decide
  simp only [readNumeral, takeWhole_append whole point, List.isEmpty_eq_false_iff.2
    whole.nonempty, fraction?_append nonempty all ends.endsDigits, Option.getD_some,
    power?_of_endsNumeral ends, List.isEmpty_eq_false_iff.2 nonempty]
  rw [if_neg (by decide), if_pos (by decide)]

/-- So are digits with a power, whether or not some stand behind a point. -/
theorem readNumeral_power (negative small : Bool) {power : List Char} (whole : IsWhole digits)
    (all : ∀ char ∈ fraction, char.isDigit = true) (nonempty : power ≠ [])
    (allPower : ∀ char ∈ power, char.isDigit = true) (ends : EndsDigits rest) :
    readNumeral negative (digits ++ ((if fraction = [] then [] else '.' :: fraction) ++
        'e' :: powerSign small :: (power ++ rest))) =
      .ok (.float (.ofDecimal negative (ofDigitChars (digits ++ fraction))
        ((if small then -(ofDigitChars power : ℤ) else ofDigitChars power) - fraction.length)),
        rest) := by
  have mark : EndsDigits ('e' :: powerSign small :: (power ++ rest)) := by
    rintro char ⟨⟩
    decide
  have taken : ((fraction? ((if fraction = [] then [] else '.' :: fraction) ++
      'e' :: powerSign small :: (power ++ rest))).getD ([], (if fraction = [] then [] else
        '.' :: fraction) ++ 'e' :: powerSign small :: (power ++ rest))) =
      (fraction, 'e' :: powerSign small :: (power ++ rest)) := by
    split
    next empty =>
      rw [List.nil_append, fraction?_of_ne (by simp), empty]
      rfl
    next some =>
      rw [List.cons_append, fraction?_append some all mark]
      rfl
  have behind : EndsDigits ((if fraction = [] then [] else '.' :: fraction) ++
      'e' :: powerSign small :: (power ++ rest)) := by
    split
    · exact mark
    · rintro char ⟨⟩
      decide
  simp only [readNumeral, takeWhole_append whole behind, List.isEmpty_eq_false_iff.2
    whole.nonempty, taken, power?_append small nonempty allPower ends]
  rw [if_neg (by decide)]

end Reading

/-! ## The shapes of a decimal -/

theorem eq_stripZeros_append (digits : List Char) :
    digits = (Binary64.stripZeros digits).1 ++
      List.replicate (Binary64.stripZeros digits).2 '0' := by
  have zeros : digits.reverse.takeWhile (· == '0') =
      List.replicate (digits.reverse.takeWhile (· == '0')).length '0' := by
    rw [List.eq_replicate_iff]
    exact ⟨rfl, fun char found => by simpa using List.mem_takeWhile_imp found⟩
  have parts : (digits.reverse.dropWhile (· == '0')).reverse ++
      (digits.reverse.takeWhile (· == '0')).reverse = digits := by
    rw [← List.reverse_append, List.takeWhile_append_dropWhile, List.reverse_reverse]
  have count : digits.length - (digits.reverse.dropWhile (· == '0')).reverse.length =
      (digits.reverse.takeWhile (· == '0')).length := by
    have lengths := congrArg List.length parts
    rw [List.length_append, List.length_reverse, List.length_reverse] at lengths
    rw [List.length_reverse]
    omega
  rw [zeros, List.reverse_replicate] at parts
  rw [Binary64.stripZeros, count]
  exact parts.symm

/-- Digits that start a number: there are some, and no zero comes first. -/
structure IsLeading (chars : List Char) : Prop where
  nonempty : chars ≠ []
  digits : ∀ char ∈ chars, char.isDigit = true
  lead : chars.head? ≠ some '0'

theorem isLeading_stripZeros {number : ℕ} (positive : 0 < number) :
    IsLeading (Binary64.stripZeros (Nat.toDigits 10 number)).1 := by
  have parts := eq_stripZeros_append (Nat.toDigits 10 number)
  set kept := (Binary64.stripZeros (Nat.toDigits 10 number)).1
  have nonempty : kept ≠ [] := by
    intro empty
    rw [empty, List.nil_append] at parts
    have value := ofDigitChars_toDigits number
    rw [parts, ofDigitChars_replicate_zero] at value
    omega
  refine ⟨nonempty, fun char found => ?_, ?_⟩
  · have among : char ∈ Nat.toDigits 10 number := by
      rw [parts]
      exact List.mem_append_left _ found
    exact isDigit_of_mem_toDigits among
  · rw [← List.head?_append_of_ne_nil _ nonempty, ← parts]
    exact head?_toDigits_ne_zero positive

theorem IsLeading.isWhole {digits : List Char} (leading : IsLeading digits) : IsWhole digits :=
  ⟨leading.nonempty, leading.digits, fun zero => absurd zero leading.lead⟩

theorem IsLeading.append {digits : List Char} (leading : IsLeading digits) {more : List Char}
    (all : ∀ char ∈ more, char.isDigit = true) : IsLeading (digits ++ more) := by
  refine ⟨List.append_ne_nil_of_left_ne_nil leading.nonempty _, fun char found => ?_, ?_⟩
  · rcases List.mem_append.1 found with found | found
    · exact leading.digits char found
    · exact all char found
  · rw [List.head?_append_of_ne_nil _ leading.nonempty]
    exact leading.lead

theorem IsLeading.take {digits : List Char} (leading : IsLeading digits) {count : ℕ}
    (positive : 0 < count) : IsLeading (digits.take count) := by
  obtain ⟨char, others, rfl⟩ := List.exists_cons_of_ne_nil leading.nonempty
  obtain ⟨count, rfl⟩ := Nat.exists_eq_succ_of_ne_zero positive.ne'
  exact ⟨by simp, fun char found => leading.digits char (List.mem_of_mem_take found),
    leading.lead⟩

theorem isDigit_of_mem_replicate_zero {count : ℕ} {char : Char}
    (found : char ∈ List.replicate count '0') : char.isDigit = true := by
  rw [List.eq_of_mem_replicate found]
  decide

section Place

variable {digits rest : List Char} (negative : Bool)

/-- The point in front of all digits, or some zeros further up. -/
theorem readNumeral_small (leading : IsLeading digits) (ends : EndsNumeral rest) (zeros : ℕ) :
    readNumeral negative ('0' :: '.' :: List.replicate zeros '0' ++ digits ++ rest) =
      .ok (.float (.ofDecimal negative (ofDigitChars digits) (-(zeros + digits.length : ℕ))),
        rest) := by
  have zero : IsWhole ['0'] := isWhole_toDigits 0
  have all : ∀ char ∈ List.replicate zeros '0' ++ digits, char.isDigit = true := by
    intro char found
    rcases List.mem_append.1 found with found | found
    · exact isDigit_of_mem_replicate_zero found
    · exact leading.digits char found
  have read := readNumeral_fraction negative zero
    (List.append_ne_nil_of_right_ne_nil _ leading.nonempty) all ends
  rw [ofDigitChars_append, ofDigitChars_append, ofDigitChars_replicate_zero,
    show ofDigitChars ['0'] = 0 from rfl, Nat.zero_mul, Nat.zero_mul, Nat.zero_add, Nat.zero_add,
    List.length_append, List.length_replicate] at read
  simpa using read

/-- The point behind all digits, or some zeros further down. -/
theorem readNumeral_large (leading : IsLeading digits) (ends : EndsNumeral rest) (zeros : ℕ) :
    readNumeral negative (digits ++ List.replicate zeros '0' ++ ['.', '0'] ++ rest) =
      .ok (.float (.ofDecimal negative (ofDigitChars digits) zeros), rest) := by
  have whole : IsWhole (digits ++ List.replicate zeros '0') :=
    (leading.append fun _ => isDigit_of_mem_replicate_zero).isWhole
  have zero : IsWhole ['0'] := isWhole_toDigits 0
  have read := readNumeral_fraction negative whole zero.nonempty zero.digits ends
  have value : Binary64.ofDecimal negative
      (ofDigitChars (digits ++ List.replicate zeros '0' ++ ['0'])) (-(['0'].length : ℕ)) =
      Binary64.ofDecimal negative (ofDigitChars digits) zeros := by
    apply Binary64.ofDecimal_congr
    rw [ofDigitChars_append, ofDigitChars_append, ofDigitChars_replicate_zero,
      show ofDigitChars ['0'] = 0 from rfl, List.length_replicate, List.length_singleton]
    push_cast
    rw [zpow_natCast, zpow_neg_one]
    ring
  rw [value] at read
  simpa using read

/-- The point among the digits. -/
theorem readNumeral_middle (leading : IsLeading digits) (ends : EndsNumeral rest) {point : ℕ}
    (positive : 0 < point) (inside : point < digits.length) :
    readNumeral negative (digits.take point ++ '.' :: digits.drop point ++ rest) =
      .ok (.float (.ofDecimal negative (ofDigitChars digits) (-(digits.length - point : ℕ))),
        rest) := by
  have nonempty : digits.drop point ≠ [] := by
    rw [ne_eq, List.drop_eq_nil_iff, not_le]
    exact inside
  have read := readNumeral_fraction negative (leading.take positive).isWhole nonempty
    (fun char found => leading.digits char (List.mem_of_mem_drop found)) ends
  rw [List.take_append_drop, List.length_drop] at read
  simpa using read

/-- A power of ten behind the digits. -/
theorem readNumeral_scientific (leading : IsLeading digits) (ends : EndsDigits rest)
    (power : ℕ) (small : Bool) {padded : List Char} (nonempty : padded ≠ [])
    (all : ∀ char ∈ padded, char.isDigit = true) (value : ofDigitChars padded = power) :
    readNumeral negative (digits.take 1 ++
        (if digits.drop 1 = [] then [] else '.' :: digits.drop 1) ++
        'e' :: powerSign small :: padded ++ rest) =
      .ok (.float (.ofDecimal negative (ofDigitChars digits)
        ((if small then -(power : ℤ) else power) - (digits.length - 1 : ℕ))), rest) := by
  have read := readNumeral_power negative small
    (leading.take Nat.one_pos).isWhole
    (fun char found => leading.digits char (List.mem_of_mem_drop (i := 1) found)) nonempty all ends
  rw [List.take_append_drop, List.length_drop, value] at read
  simpa using read

/-- The digits of a decimal are read back, whatever shape it has. -/
theorem readNumeral_place (leading : IsLeading digits) (ends : EndsNumeral rest) (point : ℤ) :
    readNumeral negative (Binary64.place digits point ++ rest) =
      .ok (.float (.ofDecimal negative (ofDigitChars digits) (point - digits.length)), rest) := by
  have some : 0 < digits.length := List.length_pos_of_ne_nil leading.nonempty
  rw [Binary64.place]
  split
  · split
    next front =>
      have exponent : (-((-point).toNat + digits.length : ℕ) : ℤ) = point - digits.length := by
        omega
      rw [readNumeral_small negative leading ends, exponent]
    next inner =>
      split
      next behind =>
        have exponent : ((point - digits.length).toNat : ℤ) = point - digits.length := by omega
        rw [readNumeral_large negative leading ends, exponent]
      next among =>
        have exponent : (-(digits.length - point.toNat : ℕ) : ℤ) = point - digits.length := by
          omega
        rw [readNumeral_middle negative leading ends (by omega) (by omega), exponent]
  · -- The power is written with at least two digits.
    have sign : (if point - 1 < 0 then '-' else '+') = powerSign (decide (point - 1 < 0)) := by
      simp [powerSign]
    have written : (toString (point - 1).natAbs).toList = Nat.toDigits 10 (point - 1).natAbs := by
      rw [Nat.toString_eq_ofList_toDigits, String.toList_ofList]
    have exponent : ((if decide (point - 1 < 0) then -((point - 1).natAbs : ℤ) else
        (point - 1).natAbs) - (digits.length - 1 : ℕ) : ℤ) = point - digits.length := by
      simp only [decide_eq_true_eq]
      split <;> omega
    simp only [sign, written]
    rw [readNumeral_scientific negative leading ends.endsDigits (point - 1).natAbs, exponent]
    · split
      · simp
      · exact Nat.toDigits_ne_nil
    · intro char found
      split at found
      · rcases List.mem_cons.1 found with rfl | found
        · decide
        · exact isDigit_of_mem_toDigits found
      · exact isDigit_of_mem_toDigits found
    · split
      · rw [ofDigitChars_cons_zero, ofDigitChars_toDigits]
      · exact ofDigitChars_toDigits _

end Place

/-! ## Whole numbers -/

theorem toList_toString (number : ℤ) :
    (toString number).toList =
      (if number < 0 then ['-'] else []) ++ Nat.toDigits 10 number.natAbs := by
  rw [Int.toString_eq_repr, Int.repr_eq_if]
  by_cases negative : number < 0
  · rw [if_neg (not_le.2 negative), if_pos negative, String.toList_append, Nat.toList_repr,
      show (-number).toNat = number.natAbs by omega]
    rfl
  · rw [if_pos (not_lt.1 negative), if_neg negative, Nat.toList_repr,
      show number.toNat = number.natAbs by omega]
    rfl

theorem length_toDigits_of_lt {number count : ℕ} (positive : 0 < count)
    (small : number < Nat.pow 10 count) : (Nat.toDigits 10 number).length ≤ count :=
  (Nat.length_toDigits_le_iff (by decide) positive).2 small

theorem length_toDigits_of_isWritable {number : ℤ} (writable : Text.isWritable number = true) :
    (Nat.toDigits 10 number.natAbs).length ≤ Text.maxDigits :=
  length_toDigits_of_lt (by decide) (of_decide_eq_true writable)

/-- The sign and the size make a number. -/
theorem signed_natAbs (number : ℤ) :
    (if number < 0 then -(number.natAbs : ℤ) else number.natAbs) = number := by
  split <;> omega

theorem readScalar_of_isDigit {char : Char} (digit : char.isDigit = true) (rest : List Char) :
    readScalar (char :: rest) = readNumeral false (char :: rest) := by
  have other : ∀ letter : Char, letter.isDigit = false → ∀ tail, char :: rest ≠ letter :: tail := by
    intro letter different tail equal
    rw [(List.cons.inj equal).1, different] at digit
    cases digit
  rw [readScalar]
  · exact other 'n' (by decide)
  · exact other 't' (by decide)
  · exact other 'f' (by decide)
  · exact other 'N' (by decide)
  · exact other 'I' (by decide)
  · exact fun tail => other '-' (by decide) _
  · exact other '-' (by decide)

theorem readScalar_minus_of_isDigit {char : Char} (digit : char.isDigit = true)
    (rest : List Char) : readScalar ('-' :: char :: rest) = readNumeral true (char :: rest) := by
  rw [readScalar]
  rintro tail equal
  rw [(List.cons.inj equal).1] at digit
  cases digit

/-- A numeral with its sign. -/
theorem readScalar_signed (negative : Bool) {char : Char} (digit : char.isDigit = true)
    (rest : List Char) :
    readScalar ((if negative then ['-'] else []) ++ char :: rest) =
      readNumeral negative (char :: rest) := by
  cases negative with
  | false => exact readScalar_of_isDigit digit rest
  | true => exact readScalar_minus_of_isDigit digit rest

/-- A whole number that can be written is read back. -/
theorem readScalar_int {number : ℤ} (writable : Text.isWritable number = true)
    {rest : List Char} (ends : EndsNumeral rest) :
    readScalar ((toString number).toList ++ rest) = .ok (.int number, rest) := by
  have whole := isWhole_toDigits number.natAbs
  obtain ⟨char, others, digits⟩ := List.exists_cons_of_ne_nil whole.nonempty
  have digit : char.isDigit = true := whole.digits char (by rw [digits]; exact List.mem_cons_self)
  have signed := readScalar_signed (decide (number < 0)) digit (others ++ rest)
  simp only [decide_eq_true_eq] at signed
  rw [toList_toString, List.append_assoc, digits, List.cons_append, signed, ← List.cons_append,
    ← digits, readNumeral_whole _ whole (length_toDigits_of_isWritable writable) ends,
    ofDigitChars_toDigits]
  simp only [decide_eq_true_eq, signed_natAbs]

/-! ## Floating-point numbers -/

theorem exists_place_cons {digits : List Char} (leading : IsLeading digits) (point : ℤ) :
    ∃ char rest, Binary64.place digits point = char :: rest ∧ char.isDigit = true := by
  obtain ⟨char, others, rfl⟩ := List.exists_cons_of_ne_nil leading.nonempty
  have digit := leading.digits char List.mem_cons_self
  rw [Binary64.place]
  split
  · split
    · exact ⟨'0', _, rfl, by decide⟩
    next inner =>
      split
      · exact ⟨char, _, rfl, digit⟩
      · obtain ⟨count, counted⟩ := Nat.exists_eq_succ_of_ne_zero (show point.toNat ≠ 0 by omega)
        rw [counted]
        exact ⟨char, _, rfl, digit⟩
  · exact ⟨char, _, rfl, digit⟩

/-- The text of a finite number without its sign. -/
theorem exists_render_finite {mantissa : ℕ} {exponent : ℤ} {negative : Bool}
    (canonical : (Binary64.finite negative mantissa exponent).IsCanonical) :
    ∃ char body, (Binary64.finite negative mantissa exponent).render.toList =
        (if negative then ['-'] else []) ++ char :: body ∧ char.isDigit = true ∧
      ∀ rest, EndsNumeral rest → readNumeral negative (char :: body ++ rest) =
        .ok (.float (.finite negative mantissa exponent), rest) := by
  obtain rfl | positive := Nat.eq_zero_or_pos mantissa
  · obtain rfl : exponent = Binary64.minExponent := canonical.2.2.2.resolve_left (by decide)
    refine ⟨'0', ['.', '0'], by cases negative <;> rfl, by decide, fun rest ends => ?_⟩
    have zero : IsWhole ['0'] := isWhole_toDigits 0
    exact readNumeral_fraction negative zero zero.nonempty zero.digits ends
  · set decimal := Binary64.shortest mantissa exponent
    have reads := Binary64.ofDecimal_shortest canonical positive
    have decimal_pos : 0 < decimal.digits := by
      refine Nat.pos_of_ne_zero fun none => ?_
      rw [show (Binary64.shortest mantissa exponent).digits = 0 from none, Binary64.ofDecimal,
        if_pos rfl] at reads
      cases reads
      omega
    have leading := isLeading_stripZeros decimal_pos
    have parts := congrArg ofDigitChars (eq_stripZeros_append (Nat.toDigits 10 decimal.digits))
    set digits := (Binary64.stripZeros (Nat.toDigits 10 decimal.digits)).1
    set zeros := (Binary64.stripZeros (Nat.toDigits 10 decimal.digits)).2
    rw [ofDigitChars_toDigits, ofDigitChars_append, ofDigitChars_replicate_zero,
      List.length_replicate, Nat.add_zero] at parts
    set point : ℤ := decimal.exponent + zeros + digits.length
    have value : Binary64.ofDecimal negative (ofDigitChars digits) (point - digits.length) =
        .finite negative mantissa exponent := by
      rw [← reads]
      apply Binary64.ofDecimal_congr
      rw [show (Binary64.shortest mantissa exponent).digits = _ from parts,
        show point - digits.length = zeros + decimal.exponent by ring,
        zpow_add₀ (by norm_num), zpow_natCast]
      push_cast
      ring
    obtain ⟨char, body, placed, digit⟩ := exists_place_cons leading point
    refine ⟨char, body, ?_, digit, fun rest ends => ?_⟩
    · have text : (Binary64.finite negative mantissa exponent).render =
          String.ofList (if negative then '-' :: Binary64.place digits point else
            Binary64.place digits point) := by
        simp only [Binary64.render, if_neg positive.ne']
        rfl
      rw [text, String.toList_ofList, placed]
      cases negative <;> rfl
    · rw [← placed, readNumeral_place negative leading ends, value]

/-- A number of the format is read back. -/
theorem readScalar_float {number : Binary64} (canonical : number.IsCanonical)
    {rest : List Char} (ends : EndsNumeral rest) :
    readScalar (jsonFloat number ++ rest) = .ok (.float number, rest) := by
  cases number with
  | infinite negative => cases negative <;> rfl
  | notANumber => rfl
  | finite negative mantissa exponent =>
      obtain ⟨char, body, text, digit, reads⟩ := exists_render_finite canonical
      have json : jsonFloat (.finite negative mantissa exponent) =
          (Binary64.finite negative mantissa exponent).render.toList := rfl
      rw [json, text, List.append_assoc, List.cons_append, readScalar_signed negative digit]
      exact reads rest ends

end EditGate.Value

/-! ## Places -/

namespace EditGate.Text

theorem toNat_of_isDigit {char : Char} (digit : char.isDigit = true) :
    48 ≤ char.toNat ∧ char.toNat ≤ 57 := by
  simp only [Char.isDigit, Bool.and_eq_true, decide_eq_true_eq] at digit
  exact ⟨digit.1, digit.2⟩

theorem digitValue?_of_isDigit {char : Char} (digit : char.isDigit = true) :
    digitValue? char = some (char.toNat - '0'.toNat) := by
  have small := (toNat_of_isDigit digit).2
  rw [digitValue?, if_pos (by omega), if_pos digit]
  rfl

theorem moreDigits_of_isDigit {digits : List Char} (all : ∀ char ∈ digits, char.isDigit = true) :
    moreDigits digits = (digits.map fun digit => digit.toNat - '0'.toNat, []) := by
  induction digits with
  | nil => rfl
  | cons char rest ih =>
      rw [List.forall_mem_cons] at all
      rw [moreDigits, digitValue?_of_isDigit all.1]
      · simp only [ih all.2, List.map_cons]
      · rintro other tail rfl
        exact absurd all.1 (by decide)

theorem digitRun_of_isDigit {digits : List Char} (all : ∀ char ∈ digits, char.isDigit = true) :
    digitRun digits = (digits.map fun digit => digit.toNat - '0'.toNat, []) := by
  cases digits with
  | nil => rfl
  | cons char rest =>
      rw [List.forall_mem_cons] at all
      simp only [digitRun, digitValue?_of_isDigit all.1, moreDigits_of_isDigit all.2, List.map_cons]

theorem trimNumeral_eq_self {chars : List Char}
    (none : ∀ char ∈ chars, isNumeralBlank char = false) : trimNumeral chars = chars := by
  have keep : ∀ {chars : List Char}, (∀ char ∈ chars, isNumeralBlank char = false) →
      chars.dropWhile isNumeralBlank = chars := by
    intro chars none
    cases chars with
    | nil => rfl
    | cons char rest => rw [List.dropWhile_cons_of_neg (by simp [none])]
  rw [trimNumeral, keep none, keep fun char found => none char (List.mem_reverse.1 found),
    List.reverse_reverse]

/-- A whole number that can be written is read back, also on its own. -/
theorem readInt?_toString {number : ℤ} (writable : isWritable number = true) :
    readInt? (toString number).toList = some number := by
  have whole := Value.isWhole_toDigits number.natAbs
  have blank : ∀ char ∈ (toString number).toList, isNumeralBlank char = false := by
    intro char found
    rw [Value.toList_toString, List.mem_append] at found
    rcases found with sign | digit
    · split at sign
      · rw [List.mem_singleton.1 sign]
        decide
      · cases sign
    · have bounds := toNat_of_isDigit (whole.digits char digit)
      simp only [isNumeralBlank, isBlank]
      have : char.toNat < 128 := by omega
      simp
      omega
  obtain ⟨char, others, digits⟩ := List.exists_cons_of_ne_nil whole.nonempty
  have digit : char.isDigit = true := whole.digits char (by rw [digits]; exact List.mem_cons_self)
  have sign : takeSign (toString number).toList =
      (decide (number < 0), Nat.toDigits 10 number.natAbs) := by
    rw [Value.toList_toString]
    split
    next negative =>
      rw [decide_eq_true negative]
      rfl
    next positive =>
      rw [decide_eq_false positive, List.nil_append, digits, takeSign]
      · intro tail equal
        rw [(List.cons.inj equal).1] at digit
        cases digit
      · intro tail equal
        rw [(List.cons.inj equal).1] at digit
        cases digit
  have few := Value.length_toDigits_of_isWritable writable
  simp only [readInt?, trimNumeral_eq_self blank, sign, digitRun_of_isDigit whole.digits]
  rw [digits, List.map_cons]
  simp only [← List.map_cons (f := fun digit : Char => digit.toNat - '0'.toNat), ← digits,
    List.length_map, if_neg (not_lt.2 few)]
  have value : ofDigits ((Nat.toDigits 10 number.natAbs).map fun digit => digit.toNat - '0'.toNat) =
      number.natAbs := Value.ofDigitChars_toDigits number.natAbs
  simp only [value, decide_eq_true_eq, Value.signed_natAbs]

end EditGate.Text

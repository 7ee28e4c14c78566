import EditGate.Number.Shortest
import Mathlib

/-!
# Decimals that read back

A fraction is rounded to the number of the format that is nearest to it, so a decimal reads back
as a number if it is nearer to it than to the numbers beside it. With seventeen digits one of the
two decimals around a number always is: their distance is less than the distance of two numbers,
also below a power of two, where numbers stand twice as dense as above it.

All of this is about the values of fractions. That a value has many spellings, as a fraction or as
a decimal, does not matter to what it is rounded to.
-/

namespace EditGate.Binary64

/-! ## Numbers of the format -/

/-- Whether a number is one of the format. A finite one is held with the smallest exponent that
its mantissa has room for. -/
def IsCanonical : Binary64 → Prop
  | finite _ mantissa exponent =>
      mantissa < 2 ^ 53 ∧ minExponent ≤ exponent ∧ exponent ≤ maxExponent ∧
        (2 ^ 52 ≤ mantissa ∨ exponent = minExponent)
  | infinite _ | notANumber => True

instance decidableIsCanonical : (number : Binary64) → Decidable number.IsCanonical
  | finite _ mantissa exponent =>
      inferInstanceAs (Decidable (mantissa < 2 ^ 53 ∧ minExponent ≤ exponent ∧
        exponent ≤ maxExponent ∧ (2 ^ 52 ≤ mantissa ∨ exponent = minExponent)))
  | infinite _ | notANumber => isTrue trivial

/-! ## Logarithms -/

/-- A logarithm is settled by the two powers around a number. -/
theorem intLog_eq {base : ℕ} (large : 1 < base) {number : ℚ} {power : ℤ}
    (low : (base : ℚ) ^ power ≤ number) (high : number < (base : ℚ) ^ (power + 1)) :
    Int.log base number = power := by
  have base_pos : (0 : ℚ) < base := by exact_mod_cast Nat.lt_of_lt_of_le Nat.zero_lt_one large.le
  have positive : 0 < number := lt_of_lt_of_le (zpow_pos base_pos power) low
  have least := (Int.zpow_le_iff_le_log large positive).1 low
  have most := (Int.lt_zpow_iff_log_lt large positive).1 high
  omega

theorem digitCount_eq {number : ℕ} (positive : 0 < number) :
    digitCount number = Nat.log 10 number + 1 := by
  have bound : ∀ count, 0 < count → (digitCount number ≤ count ↔ number < 10 ^ count) :=
    fun count some => Nat.length_toDigits_le_iff (by decide) some
  apply Nat.le_antisymm
  · exact (bound _ (Nat.succ_pos _)).2 (Nat.lt_pow_succ_log_self (by decide) number)
  · rw [Nat.succ_le_iff, ← not_le]
    intro short
    have least : 0 < digitCount number := Nat.length_toDigits_pos
    have small := (bound _ (least.trans_le short)).1 short
    exact absurd (Nat.pow_log_le_self 10 positive.ne') (not_le.2 small)

/-- A scaled fraction is the fraction times the power. -/
theorem scale_ratio (numerator denominator : ℕ) (exponent : ℤ) :
    ((scale numerator denominator exponent).1 : ℚ) / (scale numerator denominator exponent).2 =
      numerator / denominator * 2 ^ exponent := by
  obtain ⟨count, rfl | rfl⟩ := exponent.eq_nat_or_neg
  · simp [scale]
    ring
  · simp [scale, zpow_neg]
    ring

theorem scale_pos {numerator denominator : ℕ} (positive : 0 < denominator) (exponent : ℤ) :
    0 < (scale numerator denominator exponent).2 :=
  Nat.mul_pos positive (Nat.pow_pos (by decide))

section Logarithms

variable {numerator denominator : ℕ}

theorem ratio_pos (above : 0 < numerator) (below : 0 < denominator) :
    (0 : ℚ) < numerator / denominator :=
  div_pos (by exact_mod_cast above) (by exact_mod_cast below)

/-- The logarithms of its parts leave two binades for a fraction. -/
theorem ratio_window (above : 0 < numerator) (below : 0 < denominator) :
    (2 : ℚ) ^ ((numerator.log2 : ℤ) - denominator.log2 - 1) ≤ numerator / denominator ∧
      (numerator / denominator : ℚ) < 2 ^ ((numerator.log2 : ℤ) - denominator.log2 + 1) := by
  have positive : (0 : ℚ) < denominator := by exact_mod_cast below
  have top : (numerator : ℚ) < 2 ^ (numerator.log2 + 1) := by exact_mod_cast Nat.lt_log2_self
  have bottom : (2 : ℚ) ^ numerator.log2 ≤ numerator := by
    exact_mod_cast Nat.log2_self_le above.ne'
  have top' : (denominator : ℚ) < 2 ^ (denominator.log2 + 1) := by exact_mod_cast Nat.lt_log2_self
  have bottom' : (2 : ℚ) ^ denominator.log2 ≤ denominator := by
    exact_mod_cast Nat.log2_self_le below.ne'
  constructor
  · rw [le_div_iff₀ positive]
    calc (2 : ℚ) ^ ((numerator.log2 : ℤ) - denominator.log2 - 1) * denominator
        ≤ 2 ^ ((numerator.log2 : ℤ) - denominator.log2 - 1) * 2 ^ (denominator.log2 + 1) :=
          mul_le_mul_of_nonneg_left top'.le (zpow_pos (by norm_num) _).le
      _ = 2 ^ numerator.log2 := by
          rw [← zpow_natCast, ← zpow_natCast, ← zpow_add₀ (by norm_num)]
          congr 1
          push_cast
          ring
      _ ≤ numerator := bottom
  · rw [div_lt_iff₀ positive]
    calc (numerator : ℚ) < 2 ^ (numerator.log2 + 1) := top
      _ = 2 ^ ((numerator.log2 : ℤ) - denominator.log2 + 1) * 2 ^ denominator.log2 := by
          rw [← zpow_natCast, ← zpow_natCast, ← zpow_add₀ (by norm_num)]
          congr 1
          push_cast
          ring
      _ ≤ 2 ^ ((numerator.log2 : ℤ) - denominator.log2 + 1) * denominator :=
          mul_le_mul_of_nonneg_left bottom' (zpow_pos (by norm_num) _).le

/-- A fraction is compared with a power of two in whole numbers. -/
theorem scale_lt_iff (below : 0 < denominator) (exponent : ℤ) :
    (scale numerator denominator (-exponent)).1 < (scale numerator denominator (-exponent)).2 ↔
      (numerator / denominator : ℚ) < 2 ^ exponent := by
  have scaled_pos : (0 : ℚ) < (scale numerator denominator (-exponent)).2 := by
    exact_mod_cast scale_pos below (-exponent)
  rw [← Nat.cast_lt (α := ℚ), ← div_lt_one scaled_pos, scale_ratio, zpow_neg,
    ← div_eq_mul_inv, div_lt_one (zpow_pos (by norm_num) _)]

theorem floorLog2_eq (above : 0 < numerator) (below : 0 < denominator) :
    floorLog2 numerator denominator = Int.log 2 (numerator / denominator : ℚ) := by
  obtain ⟨low, high⟩ := ratio_window above below
  -- The guess is the logarithm or one more.
  simp only [floorLog2, scale_lt_iff below]
  split
  next small => exact (intLog_eq (by decide) low (by simpa using small)).symm
  next large => exact (intLog_eq (by decide) (not_lt.1 large) high).symm

theorem floorLog10_eq (above : 0 < numerator) (below : 0 < denominator) :
    floorLog10 numerator denominator = Int.log 10 (numerator / denominator : ℚ) := by
  have positive : (0 : ℚ) < denominator := by exact_mod_cast below
  have positive' : (0 : ℚ) < numerator := by exact_mod_cast above
  rw [floorLog10]
  split
  next whole =>
    rw [digitCount_eq (Nat.div_pos whole below),
      Int.log_of_one_le_right 10 ((one_le_div₀ positive).2 (by exact_mod_cast whole)),
      Nat.floor_div_eq_div]
    push_cast
    ring
  next small =>
    have quotient_pos : 0 < denominator / numerator := Nat.div_pos (by omega) above
    set size := digitCount (denominator / numerator) with sized
    obtain ⟨count, counted⟩ : ∃ count, size = count + 1 :=
      ⟨_, (digitCount_eq quotient_pos)⟩
    have counted' : Nat.log 10 (denominator / numerator) = count := by
      have := digitCount_eq quotient_pos
      omega
    have least : 10 ^ count * numerator ≤ denominator := by
      rw [← Nat.le_div_iff_mul_le above, ← counted']
      exact Nat.pow_log_le_self 10 quotient_pos.ne'
    have most : denominator < 10 ^ (count + 1) * numerator := by
      rw [← Nat.div_lt_iff_lt_mul above, ← counted']
      exact Nat.lt_pow_succ_log_self (by decide) _
    have low : ((10 : ℕ) : ℚ) ^ (-(count + 1 : ℕ) : ℤ) < numerator / denominator := by
      rw [zpow_neg, zpow_natCast, inv_lt_iff_one_lt_mul₀ (by positivity), div_mul_eq_mul_div,
        one_lt_div positive, mul_comm]
      exact_mod_cast most
    have high : (numerator / denominator : ℚ) ≤ ((10 : ℕ) : ℚ) ^ (-(count : ℕ) : ℤ) := by
      rw [zpow_neg, zpow_natCast, le_inv_comm₀ (ratio_pos above below) (by positivity), inv_div,
        le_div_iff₀ positive']
      exact_mod_cast least
    simp only [counted, Nat.add_sub_cancel]
    split
    next exact =>
      refine (intLog_eq (by decide) ?_ ?_).symm
      · rw [zpow_neg, zpow_natCast, inv_le_iff_one_le_mul₀ (by positivity), div_mul_eq_mul_div,
          one_le_div positive]
        exact_mod_cast exact
      · refine lt_of_le_of_lt high ?_
        exact zpow_lt_zpow_right₀ (by norm_num) (by omega)
    next inexact =>
      refine (intLog_eq (by decide) low.le ?_).symm
      have shift : (-((count + 1 : ℕ) : ℤ) + 1) = -(count : ℤ) := by push_cast; ring
      rw [shift, zpow_neg, zpow_natCast, lt_inv_comm₀ (ratio_pos above below) (by positivity),
        inv_div, lt_div_iff₀ positive', mul_comm]
      exact_mod_cast not_le.1 inexact

end Logarithms

/-! ## Rounding -/

/-- A quotient is rounded to the number that it is nearer to than a half. -/
theorem roundDiv_eq_of_near {numerator denominator nearest : ℕ} (positive : 0 < denominator)
    (near : |(numerator : ℚ) / denominator - nearest| < 1 / 2) :
    roundDiv numerator denominator = nearest := by
  have cast_pos : (0 : ℚ) < denominator := by exact_mod_cast positive
  obtain ⟨lower, upper⟩ := abs_lt.1 near
  have low : (2 * nearest * denominator : ℚ) < 2 * numerator + denominator := by
    have bound : (nearest : ℚ) - 1 / 2 < numerator / denominator := by linarith
    rw [lt_div_iff₀ cast_pos] at bound
    linarith
  have high : (2 * numerator : ℚ) < 2 * nearest * denominator + denominator := by
    have bound : (numerator / denominator : ℚ) < nearest + 1 / 2 := by linarith
    rw [div_lt_iff₀ cast_pos] at bound
    linarith
  have low : 2 * nearest * denominator < 2 * numerator + denominator := by exact_mod_cast low
  have high : 2 * numerator < 2 * nearest * denominator + denominator := by exact_mod_cast high
  have division := Nat.div_add_mod numerator denominator
  have rest := Nat.mod_lt numerator positive
  set quotient := numerator / denominator
  have notLess : nearest ≤ quotient + 1 := by
    by_contra less
    have : denominator * (quotient + 2) ≤ denominator * nearest :=
      Nat.mul_le_mul_left _ (by omega)
    nlinarith
  have notMore : quotient ≤ nearest := by
    by_contra more
    have : denominator * (nearest + 1) ≤ denominator * quotient :=
      Nat.mul_le_mul_left _ (by omega)
    nlinarith [Nat.zero_le (numerator % denominator)]
  obtain equal | equal : nearest = quotient ∨ nearest = quotient + 1 := by omega
  · subst equal
    have half : 2 * (numerator % denominator) < denominator := by nlinarith
    have stays : ¬(denominator < 2 * (numerator % denominator) ∨
        2 * (numerator % denominator) = denominator ∧ quotient % 2 = 1) := by omega
    exact if_neg stays
  · subst equal
    have half : denominator < 2 * (numerator % denominator) := by nlinarith
    exact if_pos (Or.inl half)

theorem roundDiv_mul_left {factor : ℕ} (positive : 0 < factor) (numerator denominator : ℕ) :
    roundDiv (factor * numerator) (factor * denominator) = roundDiv numerator denominator := by
  have less : ∀ left right, factor * left < 2 * (factor * right) ↔ left < 2 * right := by
    intro left right
    rw [← Nat.mul_lt_mul_left positive (b := left), Nat.mul_left_comm]
  have same : ∀ left right, 2 * (factor * left) = factor * right ↔ 2 * left = right := by
    intro left right
    rw [← Nat.mul_right_inj positive.ne' (b := 2 * left), Nat.mul_left_comm]
  simp only [roundDiv, Nat.mul_div_mul_left _ _ positive, Nat.mul_mod_mul_left, less, same]

section Congruence

variable {numerator denominator numerator' denominator' : ℕ}

/-- Rounding depends on the value of the fraction alone. -/
theorem roundDiv_congr (below : 0 < denominator) (below' : 0 < denominator')
    (same : numerator * denominator' = numerator' * denominator) :
    roundDiv numerator denominator = roundDiv numerator' denominator' := by
  calc roundDiv numerator denominator
      = roundDiv (denominator' * numerator) (denominator' * denominator) :=
        (roundDiv_mul_left below' _ _).symm
    _ = roundDiv (denominator * numerator') (denominator * denominator') := by
        rw [mul_comm denominator', same, mul_comm numerator', mul_comm denominator']
    _ = roundDiv numerator' denominator' := roundDiv_mul_left below _ _

theorem ofRatio_congr (negative : Bool) (below : 0 < denominator) (below' : 0 < denominator')
    (same : numerator * denominator' = numerator' * denominator) :
    ofRatio negative numerator denominator = ofRatio negative numerator' denominator' := by
  obtain rfl | above := Nat.eq_zero_or_pos numerator
  · rw [zero_mul, eq_comm, mul_eq_zero, or_iff_left below.ne'] at same
    rw [same, ofRatio, ofRatio, if_pos rfl, if_pos rfl]
  have above' : 0 < numerator' := by
    refine Nat.pos_of_ne_zero fun zero => ?_
    rw [zero, zero_mul, mul_eq_zero] at same
    omega
  have value : (numerator / denominator : ℚ) = numerator' / denominator' := by
    rw [div_eq_div_iff (by exact_mod_cast below.ne') (by exact_mod_cast below'.ne')]
    exact_mod_cast same
  have logs : floorLog2 numerator denominator = floorLog2 numerator' denominator' := by
    rw [floorLog2_eq above below, floorLog2_eq above' below', value]
  have rounds : ∀ exponent, roundDiv (scale numerator denominator exponent).1
      (scale numerator denominator exponent).2 = roundDiv (scale numerator' denominator' exponent).1
      (scale numerator' denominator' exponent).2 := by
    intro exponent
    refine roundDiv_congr (scale_pos below _) (scale_pos below' _) ?_
    simp only [scale]
    calc _ = numerator * denominator' * (Nat.pow 2 exponent.toNat * Nat.pow 2 (-exponent).toNat) :=
          by ring
      _ = _ := by rw [same]; ring
  simp only [ofRatio, if_neg above.ne', if_neg above'.ne', logs, rounds]

end Congruence

/-- The value of a decimal as a fraction. -/
theorem decimal_ratio (digits : ℕ) (exponent : ℤ) :
    ((digits * Nat.pow 10 exponent.toNat : ℕ) : ℚ) / (Nat.pow 10 (-exponent).toNat : ℕ) =
      digits * 10 ^ exponent := by
  obtain ⟨count, rfl | rfl⟩ := exponent.eq_nat_or_neg
  · simp
  · simp [zpow_neg, div_eq_mul_inv]

/-- Where the point of a decimal stands is settled by its value. -/
theorem size_eq {digits : ℕ} (positive : 0 < digits) (exponent : ℤ) :
    exponent + (digitCount digits : ℤ) = Int.log 10 ((digits : ℚ) * 10 ^ exponent) + 1 := by
  have power_pos : (0 : ℚ) < 10 ^ exponent := zpow_pos (by norm_num) _
  have least : ((10 : ℕ) : ℚ) ^ Nat.log 10 digits ≤ digits := by
    exact_mod_cast Nat.pow_log_le_self 10 positive.ne'
  have most : (digits : ℚ) < ((10 : ℕ) : ℚ) ^ (Nat.log 10 digits + 1) := by
    exact_mod_cast Nat.lt_pow_succ_log_self (b := 10) (by decide) digits
  have log : Int.log 10 ((digits : ℚ) * 10 ^ exponent) = Nat.log 10 digits + exponent := by
    refine intLog_eq (by decide) ?_ ?_
    · rw [zpow_add₀ (by norm_num), zpow_natCast]
      exact mul_le_mul_of_nonneg_right least power_pos.le
    · rw [add_right_comm, zpow_add₀ (by norm_num)]
      refine mul_lt_mul_of_pos_right ?_ power_pos
      exact_mod_cast most
  rw [log, digitCount_eq positive]
  push_cast
  ring

/-- Decimals of one value are read as one number. -/
theorem ofDecimal_congr (negative : Bool) {digits digits' : ℕ} {exponent exponent' : ℤ}
    (same : (digits : ℚ) * 10 ^ exponent = digits' * 10 ^ exponent') :
    ofDecimal negative digits exponent = ofDecimal negative digits' exponent' := by
  have power_ne : ∀ power : ℤ, (10 : ℚ) ^ power ≠ 0 := fun power => zpow_ne_zero _ (by norm_num)
  obtain rfl | positive := Nat.eq_zero_or_pos digits
  · rw [Nat.cast_zero, zero_mul, eq_comm, mul_eq_zero, or_iff_left (power_ne _),
      Nat.cast_eq_zero] at same
    rw [same, ofDecimal, ofDecimal, if_pos rfl, if_pos rfl]
  have positive' : 0 < digits' := by
    refine Nat.pos_of_ne_zero fun zero => ?_
    rw [zero, Nat.cast_zero, zero_mul, mul_eq_zero, or_iff_left (power_ne _),
      Nat.cast_eq_zero] at same
    omega
  have sizes : exponent + ((Nat.toDigits 10 digits).length : ℤ) =
      exponent' + ((Nat.toDigits 10 digits').length : ℤ) :=
    (size_eq positive exponent).trans (by rw [same]; exact (size_eq positive' exponent').symm)
  have below : ∀ power : ℤ, 0 < Nat.pow 10 (-power).toNat := fun _ => Nat.pow_pos (by decide)
  have ratios : ofRatio negative (digits * Nat.pow 10 exponent.toNat)
      (Nat.pow 10 (-exponent).toNat) = ofRatio negative (digits' * Nat.pow 10 exponent'.toNat)
      (Nat.pow 10 (-exponent').toNat) := by
    refine ofRatio_congr negative (below _) (below _) ?_
    have equal := (decimal_ratio digits exponent).trans
      (same.trans (decimal_ratio digits' exponent').symm)
    rw [div_eq_div_iff (by exact_mod_cast (below _).ne') (by exact_mod_cast (below _).ne')]
      at equal
    exact_mod_cast equal
  simp only [ofDecimal, if_neg positive.ne', if_neg positive'.ne', sizes, ratios]

/-! ## Fractions near a number -/

/-- Whether a value, in units of the last place, is nearer to a mantissa than to the ones beside
it. Below a power of two, numbers stand twice as dense. -/
structure IsNear (mantissa : ℕ) (value : ℚ) : Prop where
  half : |value - mantissa| < 1 / 2
  quarter : mantissa = 2 ^ 52 → |value - mantissa| < 1 / 4

section Nearest

variable {negative : Bool} {mantissa numerator denominator : ℕ} {exponent : ℤ} {value : ℚ}

/-- The value that is rounded, in units of the last place. -/
theorem scaled_ratio (value_eq : (numerator / denominator : ℚ) = value * 2 ^ exponent) :
    ((scale numerator denominator (-exponent)).1 : ℚ) /
      (scale numerator denominator (-exponent)).2 = value := by
  have power_ne : (2 : ℚ) ^ exponent ≠ 0 := zpow_ne_zero _ (by norm_num)
  rw [scale_ratio, value_eq, zpow_neg, mul_assoc, mul_inv_cancel₀ power_ne, mul_one]

theorem roundDiv_scale_eq (below : 0 < denominator)
    (value_eq : (numerator / denominator : ℚ) = value * 2 ^ exponent) {nearest : ℕ}
    (near : |value - nearest| < 1 / 2) :
    roundDiv (scale numerator denominator (-exponent)).1
      (scale numerator denominator (-exponent)).2 = nearest := by
  refine roundDiv_eq_of_near (scale_pos below _) ?_
  rw [scaled_ratio value_eq]
  exact near

/-- How large a fraction is, by its value in units of the last place. -/
theorem le_floorLog2_iff (above : 0 < numerator) (below : 0 < denominator)
    (value_eq : (numerator / denominator : ℚ) = value * 2 ^ exponent) (shift : ℕ) :
    exponent + shift ≤ floorLog2 numerator denominator ↔ (2 : ℚ) ^ shift ≤ value := by
  have power_pos : (0 : ℚ) < 2 ^ exponent := zpow_pos (by norm_num) _
  rw [floorLog2_eq above below, ← Int.zpow_le_iff_le_log (by decide) (ratio_pos above below),
    value_eq, Nat.cast_ofNat, zpow_add₀ (by norm_num), zpow_natCast, mul_comm]
  exact mul_le_mul_iff_of_pos_right power_pos

/-- What is nearest to a number of the format is rounded to it. -/
theorem ofRatio_eq_of_isNear (canonical : (finite negative mantissa exponent).IsCanonical)
    (above : 0 < numerator) (below : 0 < denominator) (near : IsNear mantissa value)
    (value_eq : (numerator / denominator : ℚ) = value * 2 ^ exponent) :
    ofRatio negative numerator denominator = finite negative mantissa exponent := by
  obtain ⟨small, least, most, full⟩ := canonical
  obtain ⟨lower, upper⟩ := abs_lt.1 near.half
  have small' : (mantissa : ℚ) + 1 ≤ 2 ^ 53 := by exact_mod_cast Nat.succ_le_of_lt small
  have size := le_floorLog2_iff above below value_eq
  by_cases inBinade : (2 : ℚ) ^ 52 ≤ value ∨ exponent = minExponent
  · have notLarge : ¬ exponent + (53 : ℕ) ≤ floorLog2 numerator denominator := by
      rw [size, not_le]
      linarith
    have chosen : max (floorLog2 numerator denominator - 52) minExponent = exponent := by
      rcases inBinade with enough | lowest
      · have := (size 52).2 enough
        push_cast at this notLarge
        omega
      · push_cast at notLarge
        omega
    have notFull : mantissa ≠ Nat.pow 2 precision := Nat.ne_of_lt small
    simp only [ofRatio, if_neg above.ne', chosen, roundDiv_scale_eq below value_eq near.half,
      if_neg notFull, if_neg (not_lt.2 most)]
  · -- The number is a power of two, and the value lies among the denser ones below it.
    rw [not_or, not_le] at inBinade
    obtain ⟨beneath, notLowest⟩ := inBinade
    obtain rfl : mantissa = 2 ^ 52 := by
      have enough : 2 ^ 52 ≤ mantissa := full.resolve_right notLowest
      have : (mantissa : ℚ) < 2 ^ 52 + 1 := by linarith
      have : mantissa < 2 ^ 52 + 1 := by exact_mod_cast this
      omega
    obtain ⟨lower, -⟩ := abs_lt.1 (near.quarter rfl)
    push_cast at lower
    have enough := (size 51).2 (by linarith)
    have notLarge := mt (size 52).1 (not_le.2 beneath)
    have chosen : max (floorLog2 numerator denominator - 52) minExponent = exponent - 1 := by
      push_cast at enough notLarge
      omega
    have value_eq' : (numerator / denominator : ℚ) = 2 * value * 2 ^ (exponent - 1) := by
      rw [value_eq, zpow_sub₀ (by norm_num), zpow_one]
      ring
    have near' : |2 * value - (Nat.pow 2 precision : ℕ)| < 1 / 2 := by
      have power : ((Nat.pow 2 precision : ℕ) : ℚ) = 2 ^ 53 := by norm_num [precision]
      rw [power, abs_lt]
      constructor
      · linarith
      · linarith
    simp only [ofRatio, if_neg above.ne', chosen, roundDiv_scale_eq below value_eq' near', if_true,
      sub_add_cancel, if_neg (not_lt.2 most)]
    rfl

end Nearest

/-! ## Seventeen digits -/

section Shortest

variable {negative : Bool} {mantissa : ℕ} {exponent : ℤ}

/-- The value of a finite number. -/
theorem magnitude_ratio (mantissa : ℕ) (exponent : ℤ) :
    ((magnitude mantissa exponent).1 : ℚ) / (magnitude mantissa exponent).2 =
      mantissa * 2 ^ exponent := by
  rw [magnitude, scale_ratio, Nat.cast_one, div_one]

theorem smallest_ge : ((10 : ℕ) : ℚ) ^ (-324 : ℤ) ≤ 2 ^ minExponent := by
  have powers : 2 ^ 1074 ≤ 10 ^ 324 := by decide +kernel
  have powers' : (2 : ℚ) ^ 1074 ≤ 10 ^ 324 := by exact_mod_cast powers
  change ((10 : ℕ) : ℚ) ^ (-(324 : ℕ) : ℤ) ≤ 2 ^ (-(1074 : ℕ) : ℤ)
  rw [zpow_neg, zpow_neg, zpow_natCast, zpow_natCast]
  exact inv_anti₀ (pow_pos (by norm_num) _) powers'

theorem largest_le : (2 : ℚ) ^ 53 * 2 ^ maxExponent ≤ ((10 : ℕ) : ℚ) ^ (309 : ℤ) := by
  have powers : 2 ^ 53 * 2 ^ 971 ≤ 10 ^ 309 := by decide +kernel
  change (2 : ℚ) ^ 53 * 2 ^ ((971 : ℕ) : ℤ) ≤ ((10 : ℕ) : ℚ) ^ ((309 : ℕ) : ℤ)
  rw [zpow_natCast, zpow_natCast]
  exact_mod_cast powers

/-- The size of every number of the format is moderate. -/
theorem log_magnitude_bounds (canonical : (finite negative mantissa exponent).IsCanonical)
    (positive : 0 < mantissa) :
    -324 ≤ Int.log 10 ((mantissa : ℚ) * 2 ^ exponent) ∧
      Int.log 10 ((mantissa : ℚ) * 2 ^ exponent) < 309 := by
  obtain ⟨small, least, most, -⟩ := canonical
  have positive' : (1 : ℚ) ≤ mantissa := by exact_mod_cast positive
  have value_pos : (0 : ℚ) < mantissa * 2 ^ exponent :=
    mul_pos (by linarith) (zpow_pos (by norm_num) _)
  constructor
  · refine (Int.zpow_le_iff_le_log (by decide) value_pos).1 ?_
    calc ((10 : ℕ) : ℚ) ^ (-324 : ℤ) ≤ 2 ^ minExponent := smallest_ge
      _ ≤ 2 ^ exponent := zpow_le_zpow_right₀ (by norm_num) least
      _ ≤ mantissa * 2 ^ exponent := le_mul_of_one_le_left (zpow_pos (by norm_num) _).le positive'
  · refine (Int.lt_zpow_iff_log_lt (by decide) value_pos).1 ?_
    calc (mantissa : ℚ) * 2 ^ exponent
        < 2 ^ 53 * 2 ^ exponent :=
          mul_lt_mul_of_pos_right (by exact_mod_cast small) (zpow_pos (by norm_num) _)
      _ ≤ 2 ^ 53 * 2 ^ maxExponent :=
          mul_le_mul_of_nonneg_left (zpow_le_zpow_right₀ (by norm_num) most) (by norm_num)
      _ ≤ ((10 : ℕ) : ℚ) ^ (309 : ℤ) := largest_le

/-- Counted in the last of its seventeen digits, a value has sixteen digits behind the first. -/
theorem unit_bounds {value : ℚ} (positive : 0 < value) {unit : ℤ}
    (unit_eq : unit = Int.log 10 value - 16) :
    10 ^ 16 * 10 ^ unit ≤ value ∧ value < 10 ^ 17 * 10 ^ unit := by
  have shift : (10 : ℚ) ^ 16 * 10 ^ unit = 10 ^ Int.log 10 value := by
    rw [unit_eq, ← zpow_natCast, ← zpow_add₀ (by norm_num)]
    norm_num
  constructor
  · rw [shift]
    exact_mod_cast Int.zpow_log_le_self (b := 10) (by decide) positive
  · have log := Int.lt_zpow_succ_log_self (b := 10) (by decide) value
    rw [pow_succ', mul_assoc, shift, mul_comm, ← zpow_add_one₀ (by norm_num)]
    exact_mod_cast log

/-- Half of the seventeenth digit is too little to come nearer to another number. -/
theorem isNear_of_close (small : mantissa < 2 ^ 53) {value unit : ℚ}
    (unit_le : 10 ^ 16 * unit ≤ mantissa * 2 ^ exponent)
    (close : |value * 2 ^ exponent - mantissa * 2 ^ exponent| ≤ unit / 2) :
    IsNear mantissa value := by
  have power_pos : (0 : ℚ) < 2 ^ exponent := zpow_pos (by norm_num) _
  have error : |value - mantissa| ≤ mantissa / (2 * 10 ^ 16) := by
    rw [← sub_mul, abs_mul, abs_of_pos power_pos] at close
    rw [le_div_iff₀ (by norm_num)]
    refine le_of_mul_le_mul_right ?_ power_pos
    linarith
  constructor
  · refine lt_of_le_of_lt error ?_
    have small' : (mantissa : ℚ) < 2 ^ 53 := by exact_mod_cast small
    rw [div_lt_iff₀ (by norm_num)]
    linarith
  · intro power
    refine lt_of_le_of_lt error ?_
    rw [power]
    norm_num

/-- A decimal of moderate size is read as the fraction it stands for. -/
theorem ofDecimal_eq_ofRatio {digits : ℕ} (positive : 0 < digits) {unit : ℤ}
    (large : -400 ≤ unit + (digitCount digits : ℤ))
    (small : unit + (digitCount digits : ℤ) ≤ 400) :
    ofDecimal negative digits unit =
      ofRatio negative (digits * Nat.pow 10 unit.toNat) (Nat.pow 10 (-unit).toNat) := by
  have notLarge : ¬400 < unit + ((Nat.toDigits 10 digits).length : ℤ) := not_lt.2 small
  have notSmall : ¬unit + ((Nat.toDigits 10 digits).length : ℤ) < -400 := not_lt.2 large
  rw [ofDecimal, if_neg positive.ne']
  simp only [if_neg notLarge, if_neg notSmall]

/-- A decimal of seventeen digits next to a number is nearest to it. -/
theorem ofDecimal_eq_of_close (canonical : (finite false mantissa exponent).IsCanonical)
    (positive : 0 < mantissa) {digits : ℕ} {unit : ℤ}
    (unit_eq : unit = Int.log 10 ((mantissa : ℚ) * 2 ^ exponent) - 16)
    (enough : 10 ^ 16 ≤ digits) (few : digits ≤ 10 ^ 17)
    (close : |(digits : ℚ) * 10 ^ unit - mantissa * 2 ^ exponent| ≤ 10 ^ unit / 2) :
    ofDecimal false digits unit = finite false mantissa exponent := by
  have power_pos : (0 : ℚ) < 2 ^ exponent := zpow_pos (by norm_num) _
  have positive' : (0 : ℚ) < mantissa := by exact_mod_cast positive
  have digits_pos : 0 < digits := lt_of_lt_of_le (by norm_num) enough
  have value_eq : (digits : ℚ) * 10 ^ unit = digits * 10 ^ unit / 2 ^ exponent * 2 ^ exponent :=
    (div_mul_cancel₀ _ power_pos.ne').symm
  have near : IsNear mantissa (digits * 10 ^ unit / 2 ^ exponent : ℚ) := by
    refine isNear_of_close canonical.1 (unit_bounds (mul_pos positive' power_pos) unit_eq).1 ?_
    rw [← value_eq]
    exact close
  obtain ⟨low, high⟩ := log_magnitude_bounds canonical positive
  have least : 17 ≤ digitCount digits := by
    rw [digitCount_eq digits_pos]
    exact Nat.succ_le_succ (Nat.le_log_of_pow_le (by decide) enough)
  have most : digitCount digits ≤ 18 :=
    (Nat.length_toDigits_le_iff (by decide) (by decide)).2 (lt_of_le_of_lt few (by norm_num))
  rw [ofDecimal_eq_ofRatio digits_pos (by omega) (by omega)]
  refine ofRatio_eq_of_isNear canonical (Nat.mul_pos digits_pos (Nat.pow_pos (by decide)))
    (Nat.pow_pos (by decide)) near ?_
  rw [decimal_ratio]
  exact value_eq

/-- A fraction, counted in a power of ten. -/
theorem scaled_ten_ratio (numerator denominator : ℕ) (unit : ℤ) :
    ((numerator * Nat.pow 10 (-unit).toNat : ℕ) : ℚ) /
      (denominator * Nat.pow 10 unit.toNat : ℕ) * 10 ^ unit = numerator / denominator := by
  obtain ⟨count, rfl | rfl⟩ := unit.eq_nat_or_neg
  · simp
    field_simp
  · simp [zpow_neg]
    field_simp

/-- One of the two counts of seventeen digits around a value is at most a half away. -/
theorem exists_count_near {value : ℚ} (low : 10 ^ 16 ≤ value) (high : value < 10 ^ 17) :
    ∃ digits, (digits = ⌊value⌋₊ ∨ digits = ⌊value⌋₊ + 1) ∧ 10 ^ 16 ≤ digits ∧
      digits ≤ 10 ^ 17 ∧ |(digits : ℚ) - value| ≤ 1 / 2 := by
  have nonneg : 0 ≤ value := le_trans (by norm_num) low
  have floor_le := Nat.floor_le nonneg
  have lt_floor := Nat.lt_floor_add_one value
  have enough : 10 ^ 16 ≤ ⌊value⌋₊ := Nat.le_floor (by exact_mod_cast low)
  have few : ⌊value⌋₊ < 10 ^ 17 := (Nat.floor_lt nonneg).2 (by exact_mod_cast high)
  by_cases half : value - ⌊value⌋₊ ≤ 1 / 2
  · refine ⟨⌊value⌋₊, Or.inl rfl, enough, few.le, abs_le.2 ⟨?_, ?_⟩⟩
    · linarith
    · linarith
  · refine ⟨⌊value⌋₊ + 1, Or.inr rfl, Nat.le_succ_of_le enough, few, ?_⟩
    rw [Nat.cast_succ]
    refine abs_le.2 ⟨?_, ?_⟩
    · linarith
    · linarith

/-- Both of the decimals around a number are tried. -/
theorem mem_neighbours {places digits : ℕ} {unit : ℤ}
    (unit_eq : unit = floorLog10 (magnitude mantissa exponent).1 (magnitude mantissa exponent).2 -
      (places : ℤ) + 1)
    (among : digits = (magnitude mantissa exponent).1 * Nat.pow 10 (-unit).toNat /
        ((magnitude mantissa exponent).2 * Nat.pow 10 unit.toNat) ∨
      digits = (magnitude mantissa exponent).1 * Nat.pow 10 (-unit).toNat /
        ((magnitude mantissa exponent).2 * Nat.pow 10 unit.toNat) + 1)
    (reads : ofDecimal false digits unit = finite false mantissa exponent) :
    ⟨digits, unit⟩ ∈ neighbours mantissa exponent places := by
  subst unit_eq
  rw [neighbours, List.mem_filter]
  refine ⟨?_, beq_iff_eq.2 reads⟩
  rw [List.mem_map]
  refine ⟨digits, ?_, rfl⟩
  split
  · rcases among with rfl | rfl
    · exact List.mem_cons_self
    · exact List.mem_cons_of_mem _ List.mem_cons_self
  · rcases among with rfl | rfl
    · exact List.mem_cons_of_mem _ List.mem_cons_self
    · exact List.mem_cons_self

/-- One of the two decimals of seventeen digits around a number reads back as it. -/
theorem neighbours_seventeen_ne_nil (canonical : (finite false mantissa exponent).IsCanonical)
    (positive : 0 < mantissa) : neighbours mantissa exponent 17 ≠ [] := by
  have value_pos : (0 : ℚ) < mantissa * 2 ^ exponent :=
    mul_pos (by exact_mod_cast positive) (zpow_pos (by norm_num) _)
  have above : 0 < (magnitude mantissa exponent).1 :=
    Nat.mul_pos positive (Nat.pow_pos (by decide))
  have below : 0 < (magnitude mantissa exponent).2 := scale_pos Nat.one_pos exponent
  obtain ⟨unit, united⟩ : ∃ unit, unit = floorLog10 (magnitude mantissa exponent).1
    (magnitude mantissa exponent).2 - ((17 : ℕ) : ℤ) + 1 := ⟨_, rfl⟩
  have unit_eq : unit = Int.log 10 ((mantissa : ℚ) * 2 ^ exponent) - 16 := by
    rw [united, floorLog10_eq above below, magnitude_ratio]
    push_cast
    ring
  have unit_pos : (0 : ℚ) < 10 ^ unit := zpow_pos (by norm_num) _
  have scaled := (scaled_ten_ratio (magnitude mantissa exponent).1 (magnitude mantissa exponent).2
    unit).trans (magnitude_ratio mantissa exponent)
  obtain ⟨low, high⟩ := unit_bounds value_pos unit_eq
  rw [← scaled] at low high
  obtain ⟨digits, among, enough, few, near⟩ := exists_count_near
    (le_of_mul_le_mul_right low unit_pos) (lt_of_mul_lt_mul_right high unit_pos.le)
  have close : |(digits : ℚ) * 10 ^ unit - mantissa * 2 ^ exponent| ≤ 10 ^ unit / 2 := by
    rw [← scaled, ← sub_mul, abs_mul, abs_of_pos unit_pos]
    have near := mul_le_mul_of_nonneg_right near unit_pos.le
    linarith
  have reads := ofDecimal_eq_of_close canonical positive unit_eq enough few close
  rw [Nat.floor_div_eq_div] at among
  exact List.ne_nil_of_mem (mem_neighbours united among reads)

/-- What a search finds reads back, if it gets as far as seventeen digits. -/
theorem ofDecimal_shortestFrom (canonical : (finite false mantissa exponent).IsCanonical)
    (positive : 0 < mantissa) {grids places : ℕ} (reaches : places ≤ 17)
    (far : 17 < places + grids) :
    ofDecimal false (shortestFrom mantissa exponent grids places).digits
      (shortestFrom mantissa exponent grids places).exponent = finite false mantissa exponent := by
  induction grids generalizing places with
  | zero => omega
  | succ grids ih =>
      rw [shortestFrom]
      split
      next decimal others found =>
        have member : decimal ∈ neighbours mantissa exponent places := by
          rw [found]
          exact List.mem_cons_self
        exact beq_iff_eq.1 (List.mem_filter.1 member).2
      next none =>
        refine ih ?_ (by omega)
        obtain rfl | less := eq_or_lt_of_le reaches
        · exact absurd none (neighbours_seventeen_ne_nil canonical positive)
        · exact less

/-- The sign is not looked at when a fraction is rounded. -/
theorem ofRatio_negative {numerator denominator : ℕ}
    (reads : ofRatio false numerator denominator = finite false mantissa exponent)
    (negative : Bool) :
    ofRatio negative numerator denominator = finite negative mantissa exponent := by
  simp only [ofRatio] at reads ⊢
  split_ifs at reads ⊢ with none full large
  · cases reads
    rfl
  · cases reads
    rfl
  · cases reads
    rfl

theorem ofDecimal_negative {digits : ℕ} {unit : ℤ}
    (reads : ofDecimal false digits unit = finite false mantissa exponent) (negative : Bool) :
    ofDecimal negative digits unit = finite negative mantissa exponent := by
  simp only [ofDecimal] at reads ⊢
  split_ifs at reads ⊢ with none large small
  · cases reads
    rfl
  · cases reads
    rfl
  · exact ofRatio_negative reads negative

/-- The shortest decimal of a number reads back as it. -/
theorem ofDecimal_shortest (canonical : (finite negative mantissa exponent).IsCanonical)
    (positive : 0 < mantissa) :
    ofDecimal negative (shortest mantissa exponent).digits (shortest mantissa exponent).exponent =
      finite negative mantissa exponent :=
  ofDecimal_negative (ofDecimal_shortestFrom canonical positive (by decide) (by decide)) negative

end Shortest

end EditGate.Binary64

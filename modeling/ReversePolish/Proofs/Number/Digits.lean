/-
Decimals that read back. The double nearest to a decimal depends on its value
alone (`Decimal.nearest_congr`), and the digits in which a double is written
are those of a decimal whose nearest double it is (`nearest_fewest`).
-/
import ReversePolish.Proofs.Number.Rounding

namespace ReversePolish
namespace Decimal

def value (d : Decimal) : ℚ := d.digits * 10 ^ d.exponent

theorem den_toFraction (d : Decimal) : 0 < d.toFraction.den := Nat.pow_pos (by decide)

theorem value_toFraction (d : Decimal) : d.toFraction.value = d.value := by
  have powers := zpow_toNat_div (b := 10) (by norm_num) (-d.exponent)
  rw [neg_neg, zpow_neg, inv_inv] at powers
  simp only [Fraction.value, toFraction, Nat.cast_mul, cast_pow_eq_zpow, Nat.cast_ofNat, value]
  rw [mul_div_assoc, powers]

theorem value_eq_zero_iff (d : Decimal) : d.value = 0 ↔ d.digits = 0 := by
  have pos : (0 : ℚ) < 10 ^ d.exponent := zpow_pos (by norm_num) _
  simp [value, pos.ne']

/-- The digits of a number that is not nought lie between two powers. -/
theorem digitCount_bounds {n : Nat} (some : n ≠ 0) :
    (10 : ℚ) ^ ((digitCount n : ℤ) - 1) ≤ n ∧ (n : ℚ) < 10 ^ (digitCount n : ℤ) := by
  have high := (digitCount_le_iff n (digitCount n)).mp (le_refl _)
  have count : digitCount n ≠ 0 := fun none => by
    rw [none] at high
    exact some (Nat.lt_one_iff.mp high)
  have low : 10 ^ (digitCount n - 1) ≤ n := le_of_not_gt fun lt => by
    have := (digitCount_le_iff n (digitCount n - 1)).mpr lt
    omega
  rw [← Nat.cast_le (α := ℚ), cast_pow_eq_zpow, Nat.cast_sub (Nat.pos_of_ne_zero count)] at low
  rw [← Nat.cast_lt (α := ℚ), cast_pow_eq_zpow] at high
  exact ⟨by exact_mod_cast low, by exact_mod_cast high⟩

theorem top_eq {d : Decimal} (some : d.digits ≠ 0) : d.top = Int.log 10 d.value + 1 := by
  obtain ⟨low, high⟩ := digitCount_bounds some
  have pos : (0 : ℚ) < 10 ^ d.exponent := zpow_pos (by norm_num) _
  have place : Int.log 10 d.value = d.top - 1 := by
    refine log_eq_of_bounds (by norm_num) ?_ ?_
    · calc ((10 : Nat) : ℚ) ^ (d.top - 1)
          = 10 ^ ((digitCount d.digits : ℤ) - 1) * 10 ^ d.exponent := by
            rw [← zpow_add₀ (by norm_num)]; push_cast; congr 1; unfold top; ring
        _ ≤ d.value := mul_le_mul_of_nonneg_right low pos.le
    · calc d.value < 10 ^ (digitCount d.digits : ℤ) * 10 ^ d.exponent :=
            mul_lt_mul_of_pos_right high pos
        _ = ((10 : Nat) : ℚ) ^ (d.top - 1 + 1) := by
            rw [← zpow_add₀ (by norm_num)]; push_cast; congr 1; unfold top; ring
  omega

theorem nearest_of_digits_eq_zero {d : Decimal} (none : d.digits = 0) :
    d.nearest = some .zero := by
  simp [nearest, none]

/-- **The nearest double depends on the value of a decimal alone.** -/
theorem nearest_congr {d d' : Decimal} (h : d.value = d'.value) : d.nearest = d'.nearest := by
  by_cases none : d.digits = 0
  · have none' := (value_eq_zero_iff d').mp (h ▸ (value_eq_zero_iff d).mpr none)
    rw [nearest_of_digits_eq_zero none, nearest_of_digits_eq_zero none']
  · have none' : d'.digits ≠ 0 := fun zero => none
      ((value_eq_zero_iff d).mp (h ▸ (value_eq_zero_iff d').mpr zero))
    have tops : d.top = d'.top := by rw [top_eq none, top_eq none', h]
    have fractions : Magnitude.nearest d.toFraction = Magnitude.nearest d'.toFraction :=
      Magnitude.nearest_congr d.den_toFraction d'.den_toFraction
        (by rw [value_toFraction, value_toFraction, h])
    simp [nearest, none, none', tops, fractions]

theorem value_shift (n places : Nat) (exponent : ℤ) :
    value ⟨n * 10 ^ places, exponent⟩ = value ⟨n, exponent + places⟩ := by
  have ten : (10 : ℚ) ≠ 0 := by norm_num
  simp only [value, Nat.cast_mul, cast_pow_eq_zpow, Nat.cast_ofNat]
  rw [add_comm, zpow_add₀ ten, mul_assoc]

theorem value_strip (d : Decimal) : d.strip.value = d.value := by
  induction d using strip.induct with
  | case1 d h ih =>
    have digits : d.digits / 10 * 10 ^ 1 = d.digits := by omega
    have shifted := value_shift (d.digits / 10) 1 d.exponent
    rw [strip, if_pos h, ih]
    rw [digits] at shifted
    exact shifted.symm
  | case2 d h => rw [strip, if_neg h]

/-! ## Decimals of doubles -/

theorem zpow_le_zpow_of_pow_le {b c m n : Nat} (h : b ^ m ≤ c ^ n) :
    (b : ℚ) ^ (m : ℤ) ≤ (c : ℚ) ^ (n : ℤ) := by
  rw [← cast_pow_eq_zpow, ← cast_pow_eq_zpow]
  exact Nat.cast_le.mpr h

/-- No double is as great as `10 ^ 310`. -/
theorem two_zpow_1024_le : (2 : ℚ) ^ (1024 : ℤ) ≤ 10 ^ (310 : ℤ) :=
  zpow_le_zpow_of_pow_le (by decide +kernel)

/-- None but nought is as small as `10 ^ -332`. -/
theorem two_zpow_1074_le : (2 : ℚ) ^ (1074 : ℤ) ≤ 10 ^ (331 : ℤ) :=
  zpow_le_zpow_of_pow_le (by decide +kernel)

/-- The leading digit of a double is never so far from the point that the decimal is settled by
that place. -/
theorem top_bounds {d : Decimal} {x : Magnitude} (hx : x.Canonical) (some : d.digits ≠ 0)
    (same : d.value = x.value) : -330 ≤ d.top ∧ d.top ≤ 310 := by
  have significand : x.significand ≠ 0 := fun none => some
    ((value_eq_zero_iff d).mp (by simp [same, Magnitude.value, none]))
  have pos := Magnitude.value_pos significand
  have low : (10 : ℚ) ^ (-331 : ℤ) ≤ x.value := by
    calc (10 : ℚ) ^ (-331 : ℤ) ≤ 2 ^ (-1074 : ℤ) := by
          rw [zpow_neg, zpow_neg]
          exact inv_anti₀ (two_zpow_pos _) two_zpow_1074_le
      _ ≤ 1 * 2 ^ x.exponent := by
          rw [one_mul]
          exact zpow_le_zpow_right₀ one_le_two hx.least
      _ ≤ x.value :=
          mul_le_mul_of_nonneg_right (by exact_mod_cast Nat.pos_of_ne_zero significand)
            (two_zpow_pos _).le
  have high : x.value < (10 : ℚ) ^ (310 : ℤ) := by
    have greatest : x.exponent + 53 ≤ 1024 := add_le_add_left hx.greatest 53
    calc x.value < 2 ^ (x.exponent + 53) := hx.value_lt
      _ ≤ 2 ^ (1024 : ℤ) := zpow_le_zpow_right₀ one_le_two greatest
      _ ≤ 10 ^ (310 : ℤ) := two_zpow_1024_le
  have above : -331 ≤ Int.log 10 x.value :=
    (Int.zpow_le_iff_le_log (by norm_num) pos).mp (by rw [Nat.cast_ofNat]; exact low)
  have below : Int.log 10 x.value < 310 :=
    (Int.lt_zpow_iff_log_lt (by norm_num) pos).mp (by rw [Nat.cast_ofNat]; exact high)
  rw [top_eq some, same]
  omega

/-- **A double is the nearest double to any decimal of its value.** -/
theorem nearest_of_value {d : Decimal} {x : Magnitude} (hx : x.Canonical)
    (same : d.value = x.value) : d.nearest = some x := by
  have rounded : Magnitude.nearest d.toFraction = some x :=
    hx.nearest_of_value d.den_toFraction (d.value_toFraction.trans same)
  by_cases none : d.digits = 0
  · have zero : d.toFraction.num = 0 := by simp [toFraction, none]
    simp only [Magnitude.nearest, zero, if_true] at rounded
    rw [nearest_of_digits_eq_zero none]
    exact rounded
  · obtain ⟨low, high⟩ := top_bounds hx none same
    have near : ¬ d.top < -330 := by omega
    simp only [nearest, none, near, decide_false, Bool.or_self, if_neg (not_lt.mpr high)]
    exact rounded

end Decimal

namespace Magnitude

theorem value_exactDecimal (x : Magnitude) : x.exactDecimal.value = x.value := by
  unfold exactDecimal
  split
  next whole =>
    obtain ⟨n, hn⟩ := Int.eq_ofNat_of_zero_le whole
    simp only [Decimal.value, value, hn, Int.toNat_natCast, Nat.cast_mul, cast_pow_eq_zpow,
      Nat.cast_ofNat, zpow_zero, mul_one]
  next part =>
    obtain ⟨n, hn⟩ : ∃ n : Nat, x.exponent = -n := ⟨(-x.exponent).toNat, by omega⟩
    have powers : (5 : ℚ) ^ (n : ℤ) * 10 ^ (-(n : ℤ)) = 2 ^ (-(n : ℤ)) := by
      rw [zpow_neg, zpow_neg, ← div_eq_mul_inv, ← div_zpow, ← inv_zpow]
      norm_num
    simp only [Decimal.value, value, hn, neg_neg, Int.toNat_natCast, Nat.cast_mul,
      cast_pow_eq_zpow, Nat.cast_ofNat]
    rw [mul_assoc, powers]

theorem round_neighbour (x : Fraction) : x.round = x.floor ∨ x.round = x.floor + 1 := by
  unfold Fraction.round
  dsimp only
  split
  · exact .inl rfl
  · exact .inr rfl
  · split
    · exact .inl rfl
    · exact .inr rfl

theorem nearest_decimalOf? {x : Magnitude} {n : Nat} {d : Decimal} (h : x.decimalOf? n = some d) :
    d.nearest = some x := by
  have reads {d : Decimal} (h : d.readsBack x = true) : d.nearest = some x := by
    simpa [Decimal.readsBack] using h
  unfold decimalOf? at h
  dsimp only at h
  split at h
  next below above =>
    cases h
    rcases round_neighbour (x.toFraction.divPow10 (x.toFraction.top - n)) with round | round
    · rw [round]; exact reads below
    · rw [round]; exact reads above
  next below _ => cases h; exact reads below
  next above => cases h; exact reads above
  · cases h

/-- **The digits that are written read back**: the double is the nearest one to them. -/
theorem Canonical.nearest_fewest {x : Magnitude} (hx : x.Canonical) :
    x.fewest.nearest = some x := by
  unfold fewest
  split
  next none => exact Decimal.nearest_of_value hx (by simp [Decimal.value, value, none])
  next =>
    rw [Decimal.nearest_congr (Decimal.value_strip _)]
    cases found : (List.range 17).findSome? fun i => x.decimalOf? (i + 1) with
    | none => exact Decimal.nearest_of_value hx x.value_exactDecimal
    | some d =>
      obtain ⟨i, -, hi⟩ := List.exists_of_findSome?_eq_some found
      exact nearest_decimalOf? hi

end Magnitude
end ReversePolish

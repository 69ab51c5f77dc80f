/-
Rounding to a double depends on the value alone. Fractions and magnitudes have
their values among the rationals; whole parts, nearest whole numbers and the
place of the leading bit are found from the value (`floor_eq`, `round_eq`,
`unit_eq`), so two fractions of one value have one nearest double
(`nearest_congr`), and a value that a double has is rounded to that double
(`nearest_of_value`).
-/
import Mathlib.Algebra.Order.Floor.Semifield
import Mathlib.Data.Int.Log
import Mathlib.Data.Rat.Floor
import Mathlib.Tactic.Linarith
import Mathlib.Tactic.Positivity
import ReversePolish.Number.Decimal

namespace ReversePolish

/-! ## Powers -/

theorem cast_pow_eq_zpow (b n : Nat) : ((b ^ n : Nat) : ℚ) = (b : ℚ) ^ (n : ℤ) := by
  rw [zpow_natCast]
  push_cast
  rfl

/-- What is multiplied for a negative exponent, over what is divided for a positive one. -/
theorem zpow_toNat_div {b : ℚ} (hb : b ≠ 0) (q : ℤ) :
    b ^ ((-q).toNat : ℤ) / b ^ (q.toNat : ℤ) = (b ^ q)⁻¹ := by
  rw [← zpow_sub₀ hb, ← zpow_neg]
  congr 1
  omega

theorem two_zpow_pos (q : ℤ) : (0 : ℚ) < 2 ^ q := zpow_pos two_pos q

/-- The place of the leading bit of a natural, among the rationals. -/
theorem log2_bounds {n : Nat} (some : n ≠ 0) :
    (2 : ℚ) ^ (n.log2 : ℤ) ≤ n ∧ (n : ℚ) < 2 ^ ((n.log2 : ℤ) + 1) := by
  have low := Nat.log2_self_le some
  have high := Nat.lt_log2_self (n := n)
  rw [← Nat.cast_le (α := ℚ), cast_pow_eq_zpow] at low
  rw [← Nat.cast_lt (α := ℚ), cast_pow_eq_zpow] at high
  exact ⟨low, by exact_mod_cast high⟩

/-- Bounds on a value are bounds on the place of its leading bit or digit. -/
theorem log_eq_of_bounds {b : Nat} (hb : 1 < b) {v : ℚ} {k : ℤ} (low : (b : ℚ) ^ k ≤ v)
    (high : v < (b : ℚ) ^ (k + 1)) : Int.log b v = k := by
  have base : (0 : ℚ) < b := by exact_mod_cast Nat.zero_lt_of_lt hb
  have pos : 0 < v := (zpow_pos base k).trans_le low
  have above := (Int.zpow_le_iff_le_log hb pos).mp low
  have below := (Int.lt_zpow_iff_log_lt hb pos).mp high
  omega

/-! ## Fractions -/

namespace Fraction

def value (x : Fraction) : ℚ := x.num / x.den

theorem value_divPow2 (x : Fraction) (q : ℤ) : (x.divPow2 q).value = x.value / 2 ^ q := by
  simp only [value, divPow2, Nat.cast_mul, cast_pow_eq_zpow, Nat.cast_ofNat]
  rw [mul_div_mul_comm, zpow_toNat_div two_ne_zero, ← div_eq_mul_inv]

theorem den_divPow2 {x : Fraction} (hx : 0 < x.den) (q : ℤ) : 0 < (x.divPow2 q).den :=
  Nat.mul_pos hx (Nat.pow_pos (by decide))

theorem value_pos {x : Fraction} (hx : 0 < x.den) (some : x.num ≠ 0) : 0 < x.value :=
  div_pos (by exact_mod_cast Nat.pos_of_ne_zero some) (by exact_mod_cast hx)

theorem value_eq_zero_iff {x : Fraction} (hx : 0 < x.den) : x.value = 0 ↔ x.num = 0 := by
  have den : (x.den : ℚ) ≠ 0 := by exact_mod_cast hx.ne'
  simp [value, den]

theorem floor_eq (x : Fraction) : x.floor = ⌊x.value⌋₊ := (Nat.floor_div_eq_div x.num x.den).symm

/-- The whole number nearest to a rational, a half going to the even neighbour. -/
def halfEven (v : ℚ) : Nat :=
  match compare (2 * (v - ⌊v⌋₊)) 1 with
  | .lt => ⌊v⌋₊
  | .gt => ⌊v⌋₊ + 1
  | .eq => if ⌊v⌋₊ % 2 = 0 then ⌊v⌋₊ else ⌊v⌋₊ + 1

theorem halfEven_natCast (n : Nat) : halfEven n = n := by
  have below : compare (2 * ((n : ℚ) - n)) 1 = .lt := by
    rw [sub_self, mul_zero, compare_lt_iff_lt]
    exact one_pos
  simp only [halfEven, Nat.floor_natCast, below]

theorem mod_eq {x : Fraction} (hx : 0 < x.den) :
    ((x.num % x.den : Nat) : ℚ) = x.den * (x.value - ⌊x.value⌋₊) := by
  have parts := congrArg (Nat.cast : Nat → ℚ) (Nat.div_add_mod x.num x.den)
  have den : (x.den : ℚ) ≠ 0 := by exact_mod_cast hx.ne'
  push_cast at parts
  rw [← floor_eq, floor, mul_sub, value, mul_div_cancel₀ _ den]
  linarith

theorem round_eq {x : Fraction} (hx : 0 < x.den) : x.round = halfEven x.value := by
  have den : (0 : ℚ) < x.den := by exact_mod_cast hx
  have scaled : ((2 * (x.num % x.den) : Nat) : ℚ) = x.den * (2 * (x.value - ⌊x.value⌋₊)) := by
    push_cast [mod_eq hx]
    ring
  have same : compare (2 * (x.num % x.den)) x.den = compare (2 * (x.value - ⌊x.value⌋₊)) 1 := by
    generalize 2 * (x.value - ⌊x.value⌋₊) = part at scaled ⊢
    rcases lt_trichotomy part 1 with h | h | h
    · rw [compare_lt_iff_lt.mpr h, compare_lt_iff_lt, ← Nat.cast_lt (α := ℚ), scaled]
      nlinarith
    · rw [compare_eq_iff_eq.mpr h, compare_eq_iff_eq, ← Nat.cast_inj (R := ℚ), scaled, h, mul_one]
    · rw [compare_gt_iff_gt.mpr h, compare_gt_iff_gt, ← Nat.cast_lt (α := ℚ), scaled]
      nlinarith
  cases place : compare (2 * (x.value - ⌊x.value⌋₊)) 1 <;>
    simp only [round, halfEven, same, floor_eq, place]

end Fraction

/-! ## The leading bit -/

namespace Magnitude

/-- The logarithms of numerator and denominator tell the place up to one. -/
theorem guess_bounds {x : Fraction} (hx : 0 < x.den) (some : x.num ≠ 0) :
    (2 : ℚ) ^ ((x.num.log2 : ℤ) - x.den.log2 - 1) ≤ x.value ∧
      x.value < 2 ^ ((x.num.log2 : ℤ) - x.den.log2 + 1) := by
  have num := log2_bounds some
  have den := log2_bounds hx.ne'
  have pos : (0 : ℚ) < x.den := by exact_mod_cast hx
  constructor
  · calc (2 : ℚ) ^ ((x.num.log2 : ℤ) - x.den.log2 - 1)
        = 2 ^ (x.num.log2 : ℤ) / 2 ^ ((x.den.log2 : ℤ) + 1) := by
          rw [← zpow_sub₀ two_ne_zero]; congr 1; ring
      _ ≤ x.num / x.den := div_le_div₀ (Nat.cast_nonneg _) num.1 pos den.2.le
  · calc x.value < 2 ^ ((x.num.log2 : ℤ) + 1) / x.den := div_lt_div_of_pos_right num.2 pos
      _ ≤ 2 ^ ((x.num.log2 : ℤ) + 1) / 2 ^ (x.den.log2 : ℤ) :=
          div_le_div_of_nonneg_left (two_zpow_pos _).le (two_zpow_pos _) den.1
      _ = 2 ^ ((x.num.log2 : ℤ) - x.den.log2 + 1) := by
          rw [← zpow_sub₀ two_ne_zero]; congr 1; ring

/-- With such a unit the value has 53 bits before the point. -/
theorem unit_eq {x : Fraction} (hx : 0 < x.den) (some : x.num ≠ 0) :
    unit x = Int.log 2 x.value - 52 := by
  obtain ⟨low, high⟩ := guess_bounds hx some
  simp only [unit]
  generalize hg : (x.num.log2 : ℤ) - x.den.log2 - 52 = guess
  have short : (x.divPow2 guess).floor < 2 ^ 52 ↔ x.value < 2 ^ (guess + 52) := by
    have nonneg : 0 ≤ x.value / 2 ^ guess :=
      (div_pos (Fraction.value_pos hx some) (two_zpow_pos guess)).le
    have cast : ((2 ^ 52 : Nat) : ℚ) = 2 ^ (52 : ℤ) := cast_pow_eq_zpow 2 52
    rw [Fraction.floor_eq, Fraction.value_divPow2, Nat.floor_lt nonneg, cast,
      div_lt_iff₀ (two_zpow_pos guess), ← zpow_add₀ two_ne_zero, add_comm guess]
  split
  next h =>
    have place : Int.log 2 x.value = guess + 51 := by
      refine log_eq_of_bounds one_lt_two ?_ ?_
      · exact (le_of_eq (by push_cast; congr 1; omega)).trans low
      · exact (short.mp h).trans_le (le_of_eq (by push_cast; congr 1; omega))
    omega
  next h =>
    have place : Int.log 2 x.value = guess + 52 := by
      refine log_eq_of_bounds one_lt_two ?_ ?_
      · exact_mod_cast le_of_not_gt (short.not.mp h)
      · exact high.trans_le (le_of_eq (by push_cast; congr 1; omega))
    omega

/-! ## The nearest double -/

/-- **Rounding depends on the value alone.** -/
theorem nearest_congr {x y : Fraction} (hx : 0 < x.den) (hy : 0 < y.den) (h : x.value = y.value) :
    nearest x = nearest y := by
  by_cases some : x.num = 0
  · have none := (Fraction.value_eq_zero_iff hy).mp (h ▸ (Fraction.value_eq_zero_iff hx).mpr some)
    simp only [nearest, some, none, if_true]
  · have some' : y.num ≠ 0 := fun none => some
      ((Fraction.value_eq_zero_iff hx).mp (h ▸ (Fraction.value_eq_zero_iff hy).mpr none))
    have round (q : ℤ) : (x.divPow2 q).round = (y.divPow2 q).round := by
      rw [Fraction.round_eq (Fraction.den_divPow2 hx q),
        Fraction.round_eq (Fraction.den_divPow2 hy q), Fraction.value_divPow2,
        Fraction.value_divPow2, h]
    simp only [nearest, some, some', if_false, unit_eq hx some, unit_eq hy some', h, round]

def value (x : Magnitude) : ℚ := x.significand * 2 ^ x.exponent

/-- The magnitudes that doubles have: a significand of 53 bits, or fewer at the least exponent. -/
structure Canonical (x : Magnitude) : Prop where
  significand_lt : x.significand < 2 ^ 53
  normal : 2 ^ 52 ≤ x.significand ∨ x.exponent = leastExponent
  least : leastExponent ≤ x.exponent
  greatest : x.exponent ≤ greatestExponent

theorem den_toFraction (x : Magnitude) : 0 < x.toFraction.den := Nat.pow_pos (by decide)

theorem value_toFraction (x : Magnitude) : x.toFraction.value = x.value := by
  have powers := zpow_toNat_div (b := 2) two_ne_zero (-x.exponent)
  rw [neg_neg, zpow_neg, inv_inv] at powers
  simp only [Fraction.value, toFraction, Nat.cast_mul, cast_pow_eq_zpow, Nat.cast_ofNat, value]
  rw [mul_div_assoc, powers]

theorem value_pos {x : Magnitude} (some : x.significand ≠ 0) : 0 < x.value :=
  mul_pos (by exact_mod_cast Nat.pos_of_ne_zero some) (two_zpow_pos _)

theorem Canonical.value_lt {x : Magnitude} (h : x.Canonical) : x.value < 2 ^ (x.exponent + 53) := by
  have lt : (x.significand : ℚ) < 2 ^ (53 : ℤ) := by
    have cast : ((2 ^ 53 : Nat) : ℚ) = 2 ^ (53 : ℤ) := cast_pow_eq_zpow 2 53
    rw [← cast]
    exact_mod_cast h.significand_lt
  rw [value, add_comm, zpow_add₀ two_ne_zero]
  exact mul_lt_mul_of_pos_right lt (two_zpow_pos _)

/-- A double's exponent is the unit of its value, but not below the least exponent. -/
theorem Canonical.exponent_eq {x : Magnitude} (h : x.Canonical) (some : x.significand ≠ 0) :
    max leastExponent (Int.log 2 x.value - 52) = x.exponent := by
  have pos := value_pos some
  have below : Int.log 2 x.value < x.exponent + 53 :=
    (Int.lt_zpow_iff_log_lt one_lt_two pos).mp (by exact_mod_cast h.value_lt)
  rcases h.normal with normal | least
  · have low : (2 : ℚ) ^ (x.exponent + 52) ≤ x.value := by
      have ge : (2 : ℚ) ^ (52 : ℤ) ≤ x.significand := by
        have cast : ((2 ^ 52 : Nat) : ℚ) = 2 ^ (52 : ℤ) := cast_pow_eq_zpow 2 52
        rw [← cast]
        exact_mod_cast normal
      rw [value, add_comm, zpow_add₀ two_ne_zero]
      exact mul_le_mul_of_nonneg_right ge (two_zpow_pos _).le
    have above : x.exponent + 52 ≤ Int.log 2 x.value :=
      (Int.zpow_le_iff_le_log one_lt_two pos).mp (by exact_mod_cast low)
    have := h.least
    omega
  · omega

/-- **A double is the nearest double to its value.** -/
theorem Canonical.nearest_of_value {x : Magnitude} (h : x.Canonical) {y : Fraction}
    (hy : 0 < y.den) (same : y.value = x.value) : nearest y = some x := by
  rw [nearest_congr hy x.den_toFraction (same.trans x.value_toFraction.symm)]
  by_cases none : x.significand = 0
  · have zero : x.toFraction.num = 0 := by simp [toFraction, none]
    have least := h.normal.resolve_left (by omega)
    simp only [nearest, zero, if_true]
    cases x
    cases none
    cases least
    rfl
  · have some : x.toFraction.num ≠ 0 := fun zero =>
      (value_pos none).ne' (x.value_toFraction ▸
        (Fraction.value_eq_zero_iff x.den_toFraction).mpr zero)
    have round : (x.toFraction.divPow2 x.exponent).round = x.significand := by
      rw [Fraction.round_eq (Fraction.den_divPow2 x.den_toFraction _), Fraction.value_divPow2,
        value_toFraction, value, mul_div_cancel_right₀ _ (two_zpow_pos _).ne',
        Fraction.halfEven_natCast]
    have lt := h.significand_lt
    simp only [nearest, some, if_false, unit_eq x.den_toFraction some, value_toFraction,
      h.exponent_eq none, round, if_neg lt.ne, h.greatest, if_true]

end Magnitude
end ReversePolish

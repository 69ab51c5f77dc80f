/-
Remainders of whole doubles. Whatever has 53 bits at the place of some double
is the value of a double (`Magnitude.exists_canonical`), and the remainder of
two doubles has no more bits than the shorter of the two, so it is not rounded.
The remainder of whole numbers is therefore the remainder of the division that
is cut off towards zero (`Binary64.whole_remainder`).
-/
import ReversePolish.Number.Remainder
import ReversePolish.Proofs.Number.Double

namespace ReversePolish

namespace Magnitude

theorem exists_canonical {m : Nat} (bits : m < 2 ^ 53) {e : ℤ} (least : leastExponent ≤ e)
    (greatest : e ≤ greatestExponent) : ∃ y : Magnitude, y.Canonical ∧ y.value = m * 2 ^ e := by
  obtain ⟨k, rfl⟩ : ∃ k : Nat, e = leastExponent + k := ⟨(e - leastExponent).toNat, by omega⟩
  induction k generalizing m with
  | zero => exact ⟨⟨m, _⟩, ⟨bits, .inr (by simp), least, greatest⟩, rfl⟩
  | succ k ih =>
    by_cases normal : 2 ^ 52 ≤ m
    · exact ⟨⟨m, _⟩, ⟨bits, .inl normal, least, greatest⟩, rfl⟩
    · -- A leading nought is shifted out.
      obtain ⟨y, canonical, value⟩ := ih (m := 2 * m) (by omega) (by omega) (by omega)
      refine ⟨y, canonical, value.trans ?_⟩
      have shift : (2 : ℚ) ^ (leastExponent + (k + 1 : Nat)) = 2 * 2 ^ (leastExponent + k) := by
        rw [← zpow_one_add₀ two_ne_zero]
        congr 1
        push_cast
        ring
      rw [shift]
      push_cast
      ring

theorem value_shifted (z : Magnitude) {place : ℤ} (le : place ≤ z.exponent) :
    ((z.significand * 2 ^ (z.exponent - place).toNat : Nat) : ℚ) * 2 ^ place = z.value := by
  rw [Nat.cast_mul, cast_pow_eq_zpow, Int.toNat_of_nonneg (by omega), value, Nat.cast_ofNat,
    mul_assoc, ← zpow_add₀ two_ne_zero]
  congr 2
  omega

theorem mod_mul_eq {a b : Nat} {size : ℚ} (pos : 0 < size) {p q : Nat} (ha : a * size = p)
    (hb : b * size = q) : ((a % b : Nat) : ℚ) * size = (p % q : Nat) := by
  have quotient : a / b = p / q := by
    rw [← Nat.floor_div_eq_div (K := ℚ) a b, ← Nat.floor_div_eq_div (K := ℚ) p q, ← ha, ← hb,
      mul_div_mul_right _ _ pos.ne']
  have parts := congrArg (Nat.cast : Nat → ℚ) (Nat.mod_add_div a b)
  have wholes := congrArg (Nat.cast : Nat → ℚ) (Nat.mod_add_div p q)
  push_cast at parts wholes
  rw [quotient] at parts
  rw [← ha, ← hb] at wholes
  linear_combination size * parts - wholes

/-- **The remainder of two doubles is a double.** -/
theorem nearest_remainder {x y : Magnitude} (hx : x.Canonical) (hy : y.Canonical)
    (some : y.significand ≠ 0) {p q : Nat} (wholeX : x.value = p) (wholeY : y.value = q) :
    ∃ z : Magnitude, nearest (x.remainder y) = .some z ∧ z.Canonical ∧ z.value = (p % q : Nat) := by
  generalize hu : min x.exponent y.exponent = unit
  have lowX : unit ≤ x.exponent := hu ▸ min_le_left ..
  have lowY : unit ≤ y.exponent := hu ▸ min_le_right ..
  generalize ha : x.significand * 2 ^ (x.exponent - unit).toNat = a
  generalize hb : y.significand * 2 ^ (y.exponent - unit).toNat = b
  have valueA : (a : ℚ) * 2 ^ unit = p := by rw [← ha, x.value_shifted lowX, wholeX]
  have valueB : (b : ℚ) * 2 ^ unit = q := by rw [← hb, y.value_shifted lowY, wholeY]
  -- One of the two is not shifted, and the remainder has no more bits than that one.
  have bits : a % b < 2 ^ 53 := by
    rcases min_choice x.exponent y.exponent with first | second
    · have same : a = x.significand := by
        rw [← ha, ← hu, first, sub_self, Int.toNat_zero, pow_zero, mul_one]
      exact (Nat.mod_le a b).trans_lt (same ▸ hx.significand_lt)
    · have same : b = y.significand := by
        rw [← hb, ← hu, second, sub_self, Int.toNat_zero, pow_zero, mul_one]
      exact (Nat.mod_lt a (by omega)).trans (same ▸ hy.significand_lt)
  have inRange : leastExponent ≤ unit ∧ unit ≤ greatestExponent :=
    ⟨hu ▸ le_min hx.least hy.least, lowX.trans hx.greatest⟩
  obtain ⟨z, canonical, value⟩ := exists_canonical bits inRange.1 inRange.2
  have fraction : x.remainder y = toFraction ⟨a % b, unit⟩ := by
    simp only [remainder, toFraction, hu, ha, hb]
  refine ⟨z, canonical.nearest_of_value ?_ ?_, canonical, ?_⟩
  · rw [fraction]
    exact den_toFraction _
  · rw [fraction, value_toFraction, value, Magnitude.value]
  · rw [value, mod_mul_eq (two_zpow_pos unit) valueA valueB]

end Magnitude

namespace Binary64

/-! ## Doubles and their bits -/

theorem toBits_ofBits {word : UInt64} (h : word.toNat / 2 ^ 52 % 2048 ≠ 2047) :
    (Float.ofBits word).toBits = word := by
  have valid : Float.Model.Format.binary64.Valid word.toBitVec := by
    refine ⟨fun ones => absurd ?_ h⟩
    rw [Float.Model.UnpackedFloat.unpackExponent_def] at ones
    have exponent := congrArg BitVec.toNat ones
    simpa [Float.Model.Format.binary64, Nat.shiftRight_eq_div_pow] using exponent
  exact congrArg Float.toBits (Float.ofBits_toBits (.ofModel ⟨word, valid⟩))

/-- The lower 63 bits of a double: the exponent is not that of undefined numbers, and the bits
below it make up the significand. -/
theorem bits_parts {size : Magnitude} (h : size.Canonical) :
    size.bits < 2047 * 2 ^ 52 ∧
      if size.bits / 2 ^ 52 = 0 then size = ⟨size.bits, Magnitude.leastExponent⟩
      else size = ⟨2 ^ 52 + size.bits % 2 ^ 52, (size.bits / 2 ^ 52 : Nat) - 1075⟩ := by
  obtain ⟨significand, exponent⟩ := size
  obtain ⟨digits, normal, least, greatest⟩ := h
  simp only [Magnitude.leastExponent, Magnitude.greatestExponent] at digits normal least greatest ⊢
  by_cases subnormal : significand < 2 ^ 52
  · have bits : Magnitude.bits ⟨significand, exponent⟩ = significand := if_pos subnormal
    have place : exponent = -1074 := normal.resolve_left (by omega)
    rw [bits, if_pos (Nat.div_eq_of_lt subnormal), place]
    exact ⟨by omega, rfl⟩
  · have bits : Magnitude.bits ⟨significand, exponent⟩ =
        (exponent + 1075).toNat * 2 ^ 52 + (significand - 2 ^ 52) := if_neg subnormal
    have field : ((exponent + 1075).toNat * 2 ^ 52 + (significand - 2 ^ 52)) / 2 ^ 52 =
        (exponent + 1075).toNat := by omega
    have fraction : ((exponent + 1075).toNat * 2 ^ 52 + (significand - 2 ^ 52)) % 2 ^ 52 =
        significand - 2 ^ 52 := by omega
    have significand_eq : significand = 2 ^ 52 + (significand - 2 ^ 52) := by omega
    have exponent_eq : exponent = ((exponent + 1075).toNat : ℤ) - 1075 := by omega
    rw [bits, field, fraction, if_neg (by omega), ← significand_eq, ← exponent_eq]
    exact ⟨by omega, rfl⟩

/-- The double of a sign and a double's magnitude stands for these. -/
theorem ofFloat_toFloat {negative : Bool} {size : Magnitude} (h : size.Canonical) :
    ofFloat (toFloat (.finite negative size)) = .finite negative size := by
  obtain ⟨low, parts⟩ := bits_parts h
  generalize hw : toBits (.finite negative size) = word
  have word_eq : word = negative.toNat * 2 ^ 63 + size.bits := by
    rw [← hw, toBits]
    cases negative <;> simp
  have sign : negative.toNat < 2 := by cases negative <;> decide
  have small : word < 2 ^ 64 := by omega
  have signs : (word / 2 ^ 63 % 2 == 1) = negative := by
    have bit : word / 2 ^ 63 % 2 = negative.toNat := by omega
    rw [bit]
    cases negative <;> rfl
  have field : word / 2 ^ 52 % 2048 = size.bits / 2 ^ 52 := by omega
  have fraction : word % 2 ^ 52 = size.bits % 2 ^ 52 := by omega
  have given : (UInt64.ofNat word).toNat = word := UInt64.toNat_ofNat_of_lt' small
  have finite : size.bits / 2 ^ 52 ≠ 2047 := by omega
  rw [ofFloat, toFloat, hw, toBits_ofBits (by rw [given, field]; exact finite), given, ofBits]
  simp only [signs, field, fraction, if_neg finite]
  split
  next none =>
    rw [if_pos none] at parts
    rw [Nat.mod_eq_of_lt (by omega)]
    exact congrArg _ parts.symm
  next some =>
    rw [if_neg some] at parts
    exact congrArg _ parts.symm

/-! ## Whole numbers -/

/-- The exact value of a finite double. What is no number has none, and counts as nought. -/
def rational : Binary64 → ℚ
  | .finite negative size => if negative then -size.value else size.value
  | _ => 0

/-- The whole part of a double, downwards. -/
def whole (x : Float) : ℤ := ⌊(ofFloat x).rational⌋

def IsWhole (x : Float) : Prop := IsFinite x ∧ (whole x : ℚ) = (ofFloat x).rational

theorem IsWhole.parts {x : Float} (h : IsWhole x) : ∃ negative size, ∃ p : Nat,
    ofFloat x = .finite negative size ∧ size.value = p ∧
      whole x = if negative then -(p : ℤ) else p := by
  obtain ⟨⟨negative, size, hx⟩, exactly⟩ := h
  have nonneg : 0 ≤ size.value := mul_nonneg (Nat.cast_nonneg _) (two_zpow_pos _).le
  rw [hx, rational] at exactly
  refine ⟨negative, size, (whole x).natAbs, hx, ?_, ?_⟩
  · have cast : (((whole x).natAbs : Nat) : ℚ) = |(whole x : ℚ)| := by
      rw [Nat.cast_natAbs, Int.cast_abs]
    rw [cast, exactly]
    cases negative with
    | true => rw [if_pos rfl, abs_neg, abs_of_nonneg nonneg]
    | false => rw [if_neg Bool.false_ne_true, abs_of_nonneg nonneg]
  · cases negative with
    | true =>
      have sign : whole x ≤ 0 := by
        rw [← Int.cast_nonpos (R := ℚ), exactly, if_pos rfl]
        exact neg_nonpos.mpr nonneg
      rw [if_pos rfl]
      omega
    | false =>
      have sign : 0 ≤ whole x := by
        rw [← Int.cast_nonneg_iff (R := ℚ), exactly, if_neg Bool.false_ne_true]
        exact nonneg
      rw [if_neg Bool.false_ne_true]
      omega

theorem isWhole_of_value {x : Float} {negative : Bool} {size : Magnitude} {p : Nat}
    (hx : ofFloat x = .finite negative size) (value : size.value = p) :
    IsWhole x ∧ whole x = if negative then -(p : ℤ) else p := by
  have exactly : (ofFloat x).rational = ((if negative then -(p : ℤ) else p : ℤ) : ℚ) := by
    rw [hx, rational, value]
    cases negative <;> simp
  have found : whole x = if negative then -(p : ℤ) else p := by
    rw [whole, exactly, Int.floor_intCast]
  exact ⟨⟨⟨negative, size, hx⟩, by rw [found, exactly]⟩, found⟩

theorem isWhole_of_shifted {x : Float} (negative : Bool) (p k : Nat)
    (hx : ofFloat x = .finite negative ⟨p * 2 ^ k, -k⟩) :
    IsWhole x ∧ whole x = if negative then -(p : ℤ) else p := by
  refine isWhole_of_value hx ?_
  rw [Magnitude.value, zpow_neg, zpow_natCast]
  push_cast
  exact mul_inv_cancel_right₀ (pow_ne_zero k two_ne_zero) _

/-- **The remainder of whole doubles is whole, and is exactly that of the division that is cut off
towards zero.** -/
theorem whole_remainder {x y : Float} (hx : IsWhole x) (hy : IsWhole y) (some : whole y ≠ 0) :
    IsWhole (ReversePolish.remainder x y) ∧
      whole (ReversePolish.remainder x y) = (whole x).tmod (whole y) := by
  obtain ⟨negative, size, p, readX, valueX, wholeX⟩ := hx.parts
  obtain ⟨negative', size', q, readY, valueY, wholeY⟩ := hy.parts
  have divisor : size'.significand ≠ 0 := by
    intro none
    have zero : q = 0 := by
      rw [Magnitude.value, none, Nat.cast_zero, zero_mul] at valueY
      exact_mod_cast valueY.symm
    rw [wholeY, zero] at some
    cases negative' <;> simp at some
  obtain ⟨z, rounded, canonical, value⟩ := Magnitude.nearest_remainder (canonical_ofFloat readX)
    (canonical_ofFloat readY) divisor valueX valueY
  have read : ofFloat (ReversePolish.remainder x y) = .finite negative z := by
    rw [ReversePolish.remainder, readX, readY, Binary64.remainder, if_neg divisor, nearest, rounded]
    exact ofFloat_toFloat canonical
  obtain ⟨isWhole, found⟩ := isWhole_of_value read value
  refine ⟨isWhole, ?_⟩
  rw [found, wholeX, wholeY]
  cases negative <;> cases negative' <;>
    simp only [Bool.false_eq_true, if_true, if_false, Int.neg_tmod, Int.tmod_neg, Int.ofNat_tmod]

end Binary64
end ReversePolish

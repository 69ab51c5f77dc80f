/-
Doubles and their exact numbers. What a finite double stands for is a
magnitude that doubles have (`canonical_ofFloat`), and there is only one double
for a sign and a magnitude (`toFloat_ofFloat`). With the numerals read back,
numbers of one text are equal (`beq_of_number_eq`).
-/
import Mathlib
import ReversePolish.Proofs.Number.ReadBack

namespace ReversePolish
namespace Binary64

/-- Is the double a number, and not too great for one? -/
def IsFinite (x : Float) : Prop := ∃ negative size, ofFloat x = .finite negative size

theorem word_eq {word : Nat} (hw : word < 2 ^ 64) :
    (if word / 2 ^ 63 % 2 == 1 then 2 ^ 63 else 0) +
      (word / 2 ^ 52 % 2048 * 2 ^ 52 + word % 2 ^ 52) = word := by
  split
  next h => have := eq_of_beq h; omega
  next h => have := ne_of_beq_false (Bool.eq_false_iff.mpr h); omega

/-- What 64 bits stand for is a double's magnitude, and has these bits again. -/
theorem ofBits_eq_finite {word : Nat} (hw : word < 2 ^ 64) {negative : Bool} {size : Magnitude}
    (h : ofBits word = .finite negative size) :
    size.Canonical ∧ toBits (.finite negative size) = word := by
  have parts := word_eq hw
  have fraction : word % 2 ^ 52 < 2 ^ 52 := Nat.mod_lt _ (by decide)
  have exponent : word / 2 ^ 52 % 2048 < 2048 := Nat.mod_lt _ (by decide)
  unfold ofBits at h
  dsimp only at h
  split at h
  · split at h <;> cases h
  · split at h
    -- The least doubles have nothing in the field of the exponent, and no hidden bit.
    next none =>
      cases h
      rw [none, Nat.zero_mul, Nat.zero_add] at parts
      refine ⟨⟨?_, .inr rfl, ?_, ?_⟩, ?_⟩
      · exact fraction.trans (by decide)
      · exact Int.le_refl _
      · exact (by decide : Magnitude.leastExponent ≤ Magnitude.greatestExponent)
      · simp only [toBits, Magnitude.bits, if_pos fraction]
        exact parts
    next great some =>
      cases h
      refine ⟨⟨?_, .inl (Nat.le_add_right ..), ?_, ?_⟩, ?_⟩
      · simp only; omega
      · simp only [Magnitude.leastExponent]; omega
      · simp only [Magnitude.greatestExponent]; omega
      · have normal : ¬ 2 ^ 52 + word % 2 ^ 52 < 2 ^ 52 := by omega
        have place : ((word / 2 ^ 52 % 2048 : Nat) - 1075 + 1075 : ℤ).toNat =
            word / 2 ^ 52 % 2048 := by omega
        simp only [toBits, Magnitude.bits, if_neg normal, place, Nat.add_sub_cancel_left]
        exact parts

theorem canonical_ofFloat {x : Float} {negative : Bool} {size : Magnitude}
    (h : ofFloat x = .finite negative size) : size.Canonical :=
  (ofBits_eq_finite x.toBits.toNat_lt h).1

/-- **There is only one double for a sign and a magnitude.** -/
theorem toFloat_ofFloat {x : Float} {negative : Bool} {size : Magnitude}
    (h : ofFloat x = .finite negative size) : (Binary64.finite negative size).toFloat = x := by
  rw [toFloat, (ofBits_eq_finite x.toBits.toNat_lt h).2, UInt64.ofNat_toNat, Float.ofBits_toBits]

theorem ne_nan_of_finite {x : Float} {negative : Bool} {size : Magnitude}
    (h : ofFloat x = .finite negative size) : x ≠ Float.nan := by
  rintro rfl
  cases h

theorem eq_zero_of_finite {x : Float} {negative : Bool} {size : Magnitude}
    (h : ofFloat x = .finite negative size) (none : size.significand = 0) :
    x = if negative then -0.0 else 0.0 := by
  have zero : size = .zero := by
    have least := (canonical_ofFloat h).normal.resolve_left (by omega)
    cases size
    cases none
    cases least
    rfl
  rw [← toFloat_ofFloat h, zero]
  cases negative <;> rfl

theorem beq_of_finite {x y : Float} {negative negative' : Bool} {size : Magnitude}
    (hx : ofFloat x = .finite negative size) (hy : ofFloat y = .finite negative' size)
    (signs : (negative && size.significand != 0) = (negative' && size.significand != 0)) :
    (x == y) = true := by
  refine Float.beq_iff_ne_nan_and_eq.mpr ⟨ne_nan_of_finite hx, ne_nan_of_finite hy, ?_⟩
  by_cases none : size.significand = 0
  · rw [eq_zero_of_finite hx none, eq_zero_of_finite hy none]
    cases negative <;> cases negative'
    · exact .inl rfl
    · exact .inr (.inl ⟨rfl, rfl⟩)
    · exact .inr (.inr ⟨rfl, rfl⟩)
    · exact .inl rfl
  · have some : (size.significand != 0) = true := bne_iff_ne.mpr none
    rw [some, Bool.and_true, Bool.and_true] at signs
    rw [← toFloat_ofFloat hx, ← toFloat_ofFloat hy, signs]
    exact .inl rfl

end Binary64

namespace Rendering

/-- **Finite numbers of one text are equal.** -/
theorem beq_of_number_eq {x y : Float} (hx : Binary64.IsFinite x) (hy : Binary64.IsFinite y)
    (h : number x = number y) : (x == y) = true := by
  obtain ⟨negative, size, hx⟩ := hx
  obtain ⟨negative', size', hy⟩ := hy
  have read := readBinary64?_number hx (Binary64.canonical_ofFloat hx)
  rw [h, readBinary64?_number hy (Binary64.canonical_ofFloat hy)] at read
  simp only [Option.some.injEq, Binary64.finite.injEq] at read
  obtain ⟨signs, rfl⟩ := read
  exact Binary64.beq_of_finite hx hy signs.symm

end Rendering
end ReversePolish

/-
What a literal tells of its number. Equal numbers have one literal, and the
literal of a finite number reads back to it (`Rendering.read?_number`), with
one exception: nought is written without its sign. So two expressions that
divide by the two noughts have one text and different values
(`Rendering.read?_number_negative`).
-/
import ReversePolish.Expression.Basic
import ReversePolish.Proofs.Number.Double

namespace ReversePolish
namespace Rendering

open Binary64 (IsFinite)
open Numeral (read?)

theorem number_zero : number 0.0 = "0" ∧ number (-0.0) = "0" := by
  constructor <;> decide +kernel

/-- **Equal numbers have one literal.** -/
theorem number_eq_of_beq {x y : Float} (h : (x == y) = true) : number x = number y := by
  obtain ⟨-, -, rfl | ⟨rfl, rfl⟩ | ⟨rfl, rfl⟩⟩ := Float.beq_iff_ne_nan_and_eq.mp h
  · rfl
  · exact number_zero.1.trans number_zero.2.symm
  · exact number_zero.2.trans number_zero.1.symm

theorem read?_number_eq {x : Float} (hx : IsFinite x) :
    read? (number x) = some (if x == 0.0 then 0.0 else x) := by
  cases zero : x == 0.0 with
  | true =>
    rw [number_eq_of_beq zero, number_zero.1, if_pos rfl]
    decide +kernel
  | false =>
    obtain ⟨negative, size, hx⟩ := hx
    have some : (size.significand != 0) = true := by
      rw [bne_iff_ne]
      intro none
      rw [Binary64.eq_zero_of_finite hx none] at zero
      cases negative <;> cases zero
    rw [read?, readBinary64?_number hx (Binary64.canonical_ofFloat hx), some, Bool.and_true,
      Option.map_some, Binary64.toFloat_ofFloat hx]
    rfl

/-- **A literal tells its number.** What is read for the literal of a finite number is the number
itself, or nought without a sign if it is nought; so it is the very same double exactly for all
numbers but the negative nought. Finite numbers of one literal are the same, or both are nought. -/
theorem read?_number {x : Float} (hx : IsFinite x) :
    read? (number x) = some (if x == 0.0 then 0.0 else x) ∧
      (read? (number x) = some x ↔ x ≠ -0.0) ∧
      ∀ y, IsFinite y → number y = number x → y = x ∨ (y == 0.0) = true ∧ (x == 0.0) = true := by
  have read := read?_number_eq hx
  refine ⟨read, ?_, fun y hy same => ?_⟩
  · rw [read, Option.some.injEq]
    by_cases negative : x = -0.0
    · subst negative
      exact iff_of_false (by decide) (fun h => h rfl)
    · refine iff_of_true ?_ negative
      split
      next zero =>
        obtain ⟨-, -, rfl | ⟨rfl, -⟩ | ⟨rfl, -⟩⟩ := Float.beq_iff_ne_nan_and_eq.mp zero
        · rfl
        · rfl
        · exact absurd rfl negative
      next => rfl
  · rw [← same, read?_number_eq hy, Option.some.injEq] at read
    cases zero : y == 0.0 with
    | true =>
      cases zero' : x == 0.0 with
      | true => exact .inr ⟨rfl, rfl⟩
      | false =>
        obtain rfl : 0.0 = x := by simpa [zero, zero'] using read
        cases zero'
    | false =>
      cases zero' : x == 0.0 with
      | true =>
        obtain rfl : y = 0.0 := by simpa [zero, zero'] using read
        cases zero
      | false => exact .inl (by simpa [zero, zero'] using read)

theorem read?_number_greatWhole :
    IsFinite 1e15 ∧ (1e15 : Float) ≠ -0.0 ∧ number 1e15 = "1000000000000000.0" ∧
      read? (number 1e15) = some 1e15 ∧ ∀ y, IsFinite y → number y = number 1e15 → y = 1e15 := by
  have finite : IsFinite 1e15 := ⟨_, _, rfl⟩
  have apart : (1e15 : Float) ≠ -0.0 := by decide
  obtain ⟨-, same, only⟩ := read?_number finite
  refine ⟨finite, apart, by decide +kernel, same.mpr apart, fun y hy written => ?_⟩
  exact (only y hy written).resolve_right fun zero => by cases zero.2

def inverse (x : Float) : Expression :=
  .ofTokens [.number 1.0, .number x, .operation (.operator (.builtin .divide))] [] {}

/-- **The sign of nought is lost.** The literal of the negative nought reads back as the other one;
one over either is written alike, and the values are the two infinities. -/
theorem read?_number_negative :
    IsFinite (-0.0) ∧ number (-0.0) = "0" ∧ read? (number (-0.0)) = some 0.0 ∧
      (0.0 : Float) ≠ -0.0 ∧
      (inverse (-0.0)).render.2 = .ok "(1 / 0)" ∧ (inverse 0.0).render.2 = .ok "(1 / 0)" ∧
      ((inverse (-0.0)).evaluate .silent).2 = .ok (-Float.inf) ∧
      ((inverse 0.0).evaluate .silent).2 = .ok Float.inf := by
  have text (x : Float) (zero : number x = "0") : (inverse x).render.2 = .ok "(1 / 0)" := by
    have written : (inverse x).render.2 = .ok ("(" ++ number 1.0 ++ " / " ++ number x ++ ")") := rfl
    rw [written, zero]
    rfl
  have finite : IsFinite (-0.0) := ⟨_, _, rfl⟩
  refine ⟨finite, number_zero.2, read?_number_eq finite, by decide, text _ number_zero.2,
    text _ number_zero.1, rfl, rfl⟩

end Rendering
end ReversePolish

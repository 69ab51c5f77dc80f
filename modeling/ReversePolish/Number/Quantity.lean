/-
Numbers as they are compared. Every double is a whole multiple of the least
positive one, and so is every whole number; a finite quantity is that
multiple, so whole numbers and doubles are equal, or in order, exactly when
the two multiples are.
-/
import ReversePolish.Number.Binary64

namespace ReversePolish

inductive Quantity where
  | finite (units : Int)
  | infinite (negative : Bool)
  | undefined
  deriving DecidableEq, Repr

namespace Quantity

/-- How many of the least positive double make one. The number is too great to be worked out in a
proof, which needs nothing of it but that it is positive. -/
@[irreducible] def unitsOfOne : Nat := 2 ^ (-Magnitude.leastExponent).toNat

def ofWhole (n : Int) : Quantity := .finite (unitsOfOne * n)

/-- What a double amounts to. The two zeros amount to the same. -/
def ofFloat (x : Float) : Quantity :=
  match Binary64.ofFloat x with
  | .undefined => .undefined
  | .infinite negative => .infinite negative
  | .finite negative size =>
    let units : Int := size.significand * 2 ^ (size.exponent - Magnitude.leastExponent).toNat
    .finite (if negative then -units else units)

/-- Is the first less than the second? The undefined quantity is less than none, and none is
less than it. -/
def less : Quantity → Quantity → Bool
  | .finite m, .finite n => m < n
  | .finite _, .infinite negative => !negative
  | .infinite negative, .finite _ => negative
  | .infinite true, .infinite false => true
  | _, _ => false

def whole? : Quantity → Option Int
  | .finite units => if units % unitsOfOne = 0 then some (units / unitsOfOne) else none
  | _ => none

theorem unitsOfOne_pos : 0 < unitsOfOne := by
  unfold unitsOfOne
  exact Nat.pow_pos (by decide)

/-- Whole numbers are in order as quantities exactly when they are as integers. -/
@[simp] theorem less_ofWhole (m n : Int) : (ofWhole m).less (ofWhole n) = decide (m < n) :=
  decide_eq_decide.2 (Int.mul_lt_mul_left (Int.ofNat_lt.2 unitsOfOne_pos))

end Quantity
end ReversePolish

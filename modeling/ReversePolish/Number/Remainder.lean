/-
The remainder of a division whose quotient is cut off towards zero. It has the
sign of the dividend, and it is exact: the remainder of two doubles is itself
a double, so the integers below are never rounded.
-/
import ReversePolish.Number.Binary64

namespace ReversePolish

def Magnitude.remainder (x y : Magnitude) : Fraction :=
  let unit := min x.exponent y.exponent
  let count (z : Magnitude) : Nat := z.significand * 2 ^ (z.exponent - unit).toNat
  ⟨count x % count y * 2 ^ unit.toNat, 2 ^ (-unit).toNat⟩

/-- An undefined value, the dividend being infinite or the divisor zero, is the remainder
where there is none. -/
def Binary64.remainder : Binary64 → Binary64 → Binary64
  | .finite negative x, .finite _ y =>
    if y.significand = 0 then .undefined else .nearest negative (x.remainder y)
  | .finite negative x, .infinite _ => .finite negative x
  | _, _ => .undefined

/-- The remainder of `x` by `y`, with the sign of `x`. -/
def remainder (x y : Float) : Float := ((Binary64.ofFloat x).remainder (.ofFloat y)).toFloat

end ReversePolish

/-
Decimal numbers `digits * 10 ^ exponent`, and the two ways a double becomes
one: `fewest` takes the fewest digits that read back to the same double, the
closest such decimal if there are two; `significant` takes a set number of
digits of the exact value. `nearest` is the way back.
-/
import ReversePolish.Number.Binary64

namespace ReversePolish

/-- The number `digits * 10 ^ exponent`. -/
structure Decimal where
  digits : Nat
  exponent : Int
  deriving DecidableEq, Repr

namespace Decimal

def toFraction (d : Decimal) : Fraction :=
  ⟨d.digits * 10 ^ d.exponent.toNat, 10 ^ (-d.exponent).toNat⟩

/-- The place just above the leading digit: the decimal is below `10 ^ top`. -/
def top (d : Decimal) : Int := digitCount d.digits + d.exponent

/-- The double nearest to the decimal, none when that is too great. A decimal that is far
outside the doubles' range is settled by the place of its leading digit alone. -/
def nearest (d : Decimal) : Option Magnitude :=
  if d.digits = 0 || d.top < -330 then some .zero
  else if 310 < d.top then none
  else Magnitude.nearest d.toFraction

def readsBack (d : Decimal) (x : Magnitude) : Bool := d.nearest == some x

def strip (d : Decimal) : Decimal :=
  if 0 < d.digits ∧ d.digits % 10 = 0 then strip ⟨d.digits / 10, d.exponent + 1⟩ else d
termination_by d.digits
decreasing_by omega

end Decimal

namespace Magnitude

def exactDecimal (x : Magnitude) : Decimal :=
  if 0 ≤ x.exponent then ⟨x.significand * 2 ^ x.exponent.toNat, 0⟩
  else ⟨x.significand * 5 ^ (-x.exponent).toNat, x.exponent⟩

/-- A decimal of `n` digits that reads back as `x`, if there is one: only the two neighbours
of `x` among such decimals can, and if both do the closer is taken, the even one on a tie. -/
def decimalOf? (x : Magnitude) (n : Nat) : Option Decimal :=
  let place := x.toFraction.top - n
  let scaled := x.toFraction.divPow10 place
  let below : Decimal := ⟨scaled.floor, place⟩
  let above : Decimal := ⟨scaled.floor + 1, place⟩
  match below.readsBack x, above.readsBack x with
  | true, true => some ⟨scaled.round, place⟩
  | true, false => some below
  | false, true => some above
  | false, false => none

/-- The fewest digits that read back as `x`. Seventeen always do; were they not to, the exact
value would be written. -/
def fewest (x : Magnitude) : Decimal :=
  if x.significand = 0 then ⟨0, 0⟩
  else (((List.range 17).findSome? fun i => x.decimalOf? (i + 1)).getD x.exactDecimal).strip

/-- The value rounded to `n` digits, a half to the even neighbour; the digits are not
stripped. -/
def significant (x : Magnitude) (n : Nat) : Decimal :=
  let place := x.toFraction.top - n
  let digits := (x.toFraction.divPow10 place).round
  if digits = 10 ^ n then ⟨10 ^ (n - 1), place + 1⟩ else ⟨digits, place⟩

end Magnitude

end ReversePolish

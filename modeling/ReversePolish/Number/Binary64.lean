/-
Doubles as exact numbers. A finite double is a sign and a magnitude
`significand * 2 ^ exponent`; `Binary64.ofFloat` and `toFloat` go between a
`Float` and this form through its 64 bits, and `Magnitude.nearest` is the one
rounding rule: to the nearest double, a half to the even significand.
-/
import ReversePolish.Number.Fraction

namespace ReversePolish

/-- The magnitude `significand * 2 ^ exponent`. As doubles have it, the significand is below
`2 ^ 53`, and it is at least `2 ^ 52` unless the exponent is the least one. -/
structure Magnitude where
  significand : Nat
  exponent : Int
  deriving DecidableEq, Repr

namespace Magnitude

def leastExponent : Int := -1074

def greatestExponent : Int := 971

def zero : Magnitude := ⟨0, leastExponent⟩

def toFraction (x : Magnitude) : Fraction :=
  ⟨x.significand * 2 ^ x.exponent.toNat, 2 ^ (-x.exponent).toNat⟩

/-- The exponent at which a positive fraction has a significand of 53 bits. -/
def unit (x : Fraction) : Int :=
  let guess : Int := (x.num.log2 : Int) - (x.den.log2 : Int) - 52
  if (x.divPow2 guess).floor < 2 ^ 52 then guess - 1 else guess

/-- The double nearest to a fraction, a half going to the even significand; none when that
would be `2 ^ 1024` or more. -/
def nearest (x : Fraction) : Option Magnitude :=
  if x.num = 0 then some zero
  else
    let q := max leastExponent (unit x)
    let m := (x.divPow2 q).round
    let y : Magnitude := if m = 2 ^ 53 then ⟨2 ^ 52, q + 1⟩ else ⟨m, q⟩
    if y.exponent ≤ greatestExponent then some y else none

def isWhole (x : Magnitude) : Bool :=
  x.significand % 2 ^ (-x.exponent).toNat == 0

def whole (x : Magnitude) : Nat := x.toFraction.floor

/-- The lower 63 bits of the double. -/
def bits (x : Magnitude) : Nat :=
  if x.significand < 2 ^ 52 then x.significand
  else (x.exponent + 1075).toNat * 2 ^ 52 + (x.significand - 2 ^ 52)

end Magnitude

/-- What a double stands for. -/
inductive Binary64 where
  | undefined
  | infinite (negative : Bool)
  | finite (negative : Bool) (size : Magnitude)
  deriving DecidableEq, Repr

namespace Binary64

/-- Reads the 64 bits: a sign bit, eleven bits of exponent and 52 of fraction. -/
def ofBits (word : Nat) : Binary64 :=
  let negative : Bool := word / 2 ^ 63 % 2 == 1
  let exponent : Nat := word / 2 ^ 52 % 2048
  let fraction : Nat := word % 2 ^ 52
  if exponent = 2047 then
    if fraction = 0 then .infinite negative else .undefined
  else if exponent = 0 then .finite negative ⟨fraction, Magnitude.leastExponent⟩
  else .finite negative ⟨2 ^ 52 + fraction, (exponent : Int) - 1075⟩

/-- The 64 bits; the undefined value has one word. -/
def toBits : Binary64 → Nat
  | .undefined => 0x7FF8000000000000
  | .infinite negative => (if negative then 2 ^ 63 else 0) + 2047 * 2 ^ 52
  | .finite negative size => (if negative then 2 ^ 63 else 0) + size.bits

def ofFloat (x : Float) : Binary64 := ofBits x.toBits.toNat

def toFloat (x : Binary64) : Float := Float.ofBits (UInt64.ofNat x.toBits)

def nearest (negative : Bool) (x : Fraction) : Binary64 :=
  match Magnitude.nearest x with
  | some size => .finite negative size
  | none => .infinite negative

end Binary64

end ReversePolish

/-
The elementary functions that are built from others, and the constants they
need. Where a difference would cancel (`log1p` near zero, `expm1` near zero),
the rounding error of the inner step is divided out again.
-/

namespace ReversePolish
namespace Elementary

def pi : Float := 3.141592653589793

def e : Float := 2.718281828459045

def goldenRatio : Float := (1.0 + Float.sqrt 5.0) / 2.0

def undefined : Float := 0.0 / 0.0

def cot (x : Float) : Float := 1.0 / x.tan
def csc (x : Float) : Float := 1.0 / x.sin
def sec (x : Float) : Float := 1.0 / x.cos
def csch (x : Float) : Float := 1.0 / x.sinh
def sech (x : Float) : Float := 1.0 / x.cosh
def coth (x : Float) : Float := x.cosh / x.sinh

/-- The logarithm of `1 + x`, accurate also where the sum loses digits of `x`. -/
def log1p (x : Float) : Float :=
  let u := 1.0 + x
  if u == 1.0 then x
  else if u.isInf then u.log
  else u.log * (x / (u - 1.0))

/-- The exponential less one, accurate also where the difference cancels. -/
def expm1 (x : Float) : Float :=
  let u := x.exp
  if u == 1.0 then x
  else if u - 1.0 == -1.0 then -1.0
  else if u.isInf then u
  else (u - 1.0) * (x / u.log)

def logBase (x base : Float) : Float := x.log / base.log

/-- The power of a base. An exponent of one half asks for the square root, which differs from
other powers in its sign of zero and in being undefined below zero. -/
def power (x exponent : Float) : Float :=
  if exponent == 0.5 then x.sqrt else x.pow exponent

/-- One, minus one or zero, as `x` is positive, negative or zero of either sign. -/
def sign (x : Float) : Float :=
  if x > 0.0 then 1.0 else if x < 0.0 then -1.0 else if x == 0.0 then 0.0 else x

/-- Degrees to radians; the factor is rounded on its own. -/
def toRadians (x : Float) : Float := x * (pi / 180.0)

/-- Radians to degrees; the factor is rounded on its own. -/
def toDegrees (x : Float) : Float := x * (180.0 / pi)

end Elementary
end ReversePolish

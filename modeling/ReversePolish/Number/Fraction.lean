/-
Non-negative fractions, kept as they come: a numerator over a denominator,
never reduced. Numerals and doubles are both compared and rounded through
them, so every decision about a digit is one comparison of naturals.
-/

namespace ReversePolish

/-- Powers are the core library's own, whatever else is imported besides. -/
@[default_instance 20000]
instance (priority := 2000) corePow {α : Type u} [NatPow α] : Pow α Nat := instPowNat

/-- The quotient `num / den`; every fraction built here has a positive `den`. -/
structure Fraction where
  num : Nat
  den : Nat
  deriving DecidableEq, Repr

namespace Fraction

def divPow2 (x : Fraction) (q : Int) : Fraction :=
  ⟨x.num * 2 ^ (-q).toNat, x.den * 2 ^ q.toNat⟩

def divPow10 (x : Fraction) (k : Int) : Fraction :=
  ⟨x.num * 10 ^ (-k).toNat, x.den * 10 ^ k.toNat⟩

def floor (x : Fraction) : Nat := x.num / x.den

/-- The nearest natural number; a half goes to the even neighbour. -/
def round (x : Fraction) : Nat :=
  let below := x.floor
  match compare (2 * (x.num % x.den)) x.den with
  | .lt => below
  | .gt => below + 1
  | .eq => if below % 2 = 0 then below else below + 1

end Fraction

/-- How many decimal digits a number has, none for zero. -/
def digitCount (n : Nat) : Nat := if n = 0 then 0 else (Nat.toDigits 10 n).length

/-- The number of digits is the least `k` with `n < 10 ^ k`. -/
theorem digitCount_le_iff (n k : Nat) : digitCount n ≤ k ↔ n < 10 ^ k := by
  have pos : 0 < 10 ^ k := Nat.pow_pos (by decide)
  unfold digitCount
  split
  next h => subst h; simp [pos]
  next h =>
    by_cases hk : k = 0
    · subst hk; simp; omega
    · exact Nat.length_toDigits_le_iff (by decide) (Nat.pos_of_ne_zero hk)

/-- The least `k` with `x < 10 ^ k`, for a positive fraction: the place just above its
leading digit. -/
def Fraction.top (x : Fraction) : Int :=
  if x.den ≤ x.num then digitCount x.floor
  else 1 - (digitCount ((x.den - 1) / x.num) : Int)

end ReversePolish

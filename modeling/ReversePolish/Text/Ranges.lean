/-
Sets of characters as closed ranges of code points, ascending and apart. The
tables of this folder give properties of Unicode 14.
-/

namespace ReversePolish

/-- Is the code point in one of the ascending ranges? -/
def inRanges : List (Nat × Nat) → Nat → Bool
  | [], _ => false
  | (low, high) :: rest, n => if n < low then false else n ≤ high || inRanges rest n

/-- Does each range hold something and end before the next one begins? -/
def ascending : List (Nat × Nat) → Bool
  | [] => true
  | [(low, high)] => low ≤ high
  | (low, high) :: (low', high') :: rest =>
    low ≤ high && high < low' && ascending ((low', high') :: rest)

end ReversePolish

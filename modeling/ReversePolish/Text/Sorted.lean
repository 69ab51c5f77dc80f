/-
Texts in the order of their code points.
-/

namespace ReversePolish

/-- The texts in order; equal ones stay. -/
def sorted (texts : List String) : List String := texts.mergeSort fun s t => !(t < s)

end ReversePolish

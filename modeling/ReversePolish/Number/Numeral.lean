/-
How doubles are written. `Numeral.ofFloat` gives the fewest digits that read
back to the same double, positionally from one ten-thousandth up to below
10^16 and otherwise with an exponent; `Numeral.significant` gives a set number
of digits, always with an exponent. An undefined value has no sign.
-/
import ReversePolish.Number.Decimal

namespace ReversePolish
namespace Numeral

def digitsOf (n : Nat) : List Char := Nat.toDigits 10 n

/-- The digits with a point so that `places` of them stand before it, filled up with zeros;
there is a digit on both sides of the point. -/
def positional (digits : List Char) (places : Int) : List Char :=
  if places ≤ 0 then '0' :: '.' :: List.replicate (-places).toNat '0' ++ digits
  else if digits.length ≤ places then
    digits ++ List.replicate (places.toNat - digits.length) '0' ++ ['.', '0']
  else digits.take places.toNat ++ '.' :: digits.drop places.toNat

/-- An exponent: its sign, always, and at least two digits. -/
def exponentText (e : Int) : List Char :=
  let digits := digitsOf e.natAbs
  'e' :: (if e < 0 then '-' else '+') :: List.replicate (2 - digits.length) '0' ++ digits

/-- The digits with a point after the first of them, if more follow, and an exponent. -/
def scientific (digits : List Char) (e : Int) : List Char :=
  digits.take 1 ++ (if digits.length ≤ 1 then [] else '.' :: digits.drop 1) ++ exponentText e

/-- The least exponent of a leading digit that is written positionally. -/
def positionalFrom : Int := -4

/-- The least exponent of a leading digit that is too great to be written positionally. -/
def positionalBelow : Int := 16

/-- A decimal in its natural notation. -/
def layout (d : Decimal) : List Char :=
  let e := d.top - 1
  if positionalFrom ≤ e ∧ e < positionalBelow then positional (digitsOf d.digits) (e + 1)
  else scientific (digitsOf d.digits) e

def sign (negative : Bool) : List Char := if negative then ['-'] else []

def ofBinary64 : Binary64 → List Char
  | .undefined => ['n', 'a', 'n']
  | .infinite negative => sign negative ++ ['i', 'n', 'f']
  | .finite negative size => sign negative ++ layout size.fewest

def ofFloat (x : Float) : String := String.ofList (ofBinary64 (.ofFloat x))

/-- The value with `n` significant digits; zero, the infinities and the undefined value as
`ofFloat` writes them. -/
def significant (n : Nat) (x : Float) : String :=
  match Binary64.ofFloat x with
  | .finite negative size =>
    if size.significand = 0 then ofFloat x
    else
      let d := size.significant n
      String.ofList (sign negative ++ scientific (digitsOf d.digits) (d.top - 1))
  | _ => ofFloat x

end Numeral
end ReversePolish

/-
Expressions as text, in the usual notation and with every pair of parentheses
written. Whole numbers below 10^15 are written without a point.
-/
import ReversePolish.Fold

namespace ReversePolish
namespace Rendering

/-- The numbers from here on are written with a point or an exponent even if they are whole. -/
def wholeBelow : Nat := 10 ^ 15

/-- A number as it is written in an expression. -/
def number (x : Float) : String :=
  match Binary64.ofFloat x with
  | .finite negative size =>
    if size.isWhole && size.whole < wholeBelow then
      let digits := toString size.whole
      if negative && size.whole != 0 then "-" ++ digits else digits
    else Numeral.ofFloat x
  | _ => Numeral.ofFloat x

/-- An operator around its operands, in parentheses, or a function in front of its
arguments. -/
def application : Operation → List String → String
  | .operator o, [a] => "(" ++ o.symbol ++ a ++ ")"
  | .operator o, a :: b :: _ => "(" ++ a ++ " " ++ o.symbol ++ " " ++ b ++ ")"
  | .operator o, [] => "(" ++ o.symbol ++ ")"
  | .function f, args => f.name ++ "(" ++ ", ".intercalate args ++ ")"

def interpretation : Interpretation String where
  number := number
  name n := .ok n
  apply op args := .ok (application op args)

end Rendering

def rendering (tokens : List Token) : Except EvalError String :=
  Rendering.interpretation.fold tokens

end ReversePolish

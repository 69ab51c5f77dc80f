/-
Token sequences as symbolic terms. Built-in functions become the functions
they compute; an operator is taken for the built-in one with its symbol and
number of operands, whoever defined it; everything else is applied by name.
-/
import ReversePolish.Fold
import ReversePolish.Symbolic.Term

namespace ReversePolish
namespace Symbolic

/-- A number as a term. Zero has no sign there. -/
def ofNumber (x : Float) : Symbolic :=
  match Binary64.ofFloat x with
  | .undefined => .undefined
  | .infinite negative => .infinite negative
  | .finite _ size => if size.significand = 0 then .real 0.0 else .real x

def negated (a : Symbolic) : Symbolic := .mul (.whole (-1)) a

def inverse (a : Symbolic) : Symbolic := .pow a (.whole (-1))

/-- One more than a term. Before an infinite number the one is written second. -/
def successor : Symbolic → Symbolic
  | .infinite negative => .add (.infinite negative) (.whole 1)
  | a => .add (.whole 1) a

/-- A term times a factor over a divisor; the undefined number stays what it is. -/
def scaled (a factor divisor : Symbolic) : Symbolic :=
  match a with
  | .undefined => .undefined
  | a => .mul (.mul a factor) (inverse divisor)

/-- The term of an operator that is written with a symbol before or between its operands. -/
def ofOperator (symbol : String) (args : List Symbolic) : Symbolic :=
  match symbol, args with
  | "-", [a] => negated a
  | "+", [a] => a
  | "+", [a, b] => .add a b
  | "-", [a, b] => .add a (negated b)
  | "*", [a, b] => .mul a b
  | "/", [a, b] => .mul a (inverse b)
  | "^", [a, b] => .pow a b
  | "%", [a, b] => .mod a b
  | _, _ => .applied symbol args

def ofUnary (f : BuiltinFunction) (x : Symbolic) : Symbolic :=
  match f with
  | .sin => .call .sin x
  | .cos => .call .cos x
  | .tan => .call .tan x
  | .cot => .call .cot x
  | .csc => .call .csc x
  | .sec => .call .sec x
  | .asin => .call .asin x
  | .acos => .call .acos x
  | .atan => .call .atan x
  | .sinh => .call .sinh x
  | .cosh => .call .cosh x
  | .tanh => .call .tanh x
  | .csch => .call .csch x
  | .sech => .call .sech x
  | .coth => .call .coth x
  | .log => .call .log x
  | .log2 => .logBase x (.whole 2)
  | .log10 => .logBase x (.whole 10)
  | .log1p => .call .log (successor x)
  | .exp => .call .exp x
  | .expm1 => .add (.call .exp x) (.whole (-1))
  | .sqrt => .pow x (.ratio 1 2)
  | .cbrt => .pow x (.ratio 1 3)
  | .abs => .call .abs x
  | .ceil => .call .ceiling x
  | .floor => .call .floor x
  | .signum => .call .sign x
  | .toradian => scaled x .pi (.whole 180)
  | .todegree => scaled x (.whole 180) .pi
  | .logb | .pow => .applied f.name [x]

def ofFunction (f : BuiltinFunction) (args : List Symbolic) : Symbolic :=
  match f, args with
  | .logb, [x, base] => .logBase x base
  | .pow, [a, b] => .pow a b
  | f, [x] => ofUnary f x
  | f, args => .applied f.name args

def application : Operation → List Symbolic → Symbolic
  | .operator o, args => ofOperator o.symbol args
  | .function (.builtin f), args => ofFunction f args
  | .function (.defined d), args => .applied d.name args

def interpretation : Interpretation Symbolic where
  number := ofNumber
  name n := .ok (.symbol n)
  apply op args := .ok (application op args)

end Symbolic

def symbolic (tokens : List Token) : Except EvalError Symbolic :=
  Symbolic.interpretation.fold tokens

end ReversePolish

/-
Symbolic terms. A term is built from symbols, exact and inexact numbers, sums,
products, powers and applied functions, and nothing in it is simplified:
differences are sums with a negated part and quotients products with an
inverse.
-/
import ReversePolish.Text.Sorted

namespace ReversePolish

/-- The functions that terms know by meaning. -/
inductive SymbolicFunction where
  | sin | cos | tan | cot | csc | sec | asin | acos | atan
  | sinh | cosh | tanh | csch | sech | coth
  | log | exp | abs | floor | ceiling | sign
  deriving DecidableEq, Repr

namespace SymbolicFunction

def name : SymbolicFunction → String
  | .sin => "sin" | .cos => "cos" | .tan => "tan"
  | .cot => "cot" | .csc => "csc" | .sec => "sec"
  | .asin => "asin" | .acos => "acos" | .atan => "atan"
  | .sinh => "sinh" | .cosh => "cosh" | .tanh => "tanh"
  | .csch => "csch" | .sech => "sech" | .coth => "coth"
  | .log => "log" | .exp => "exp"
  | .abs => "Abs" | .floor => "floor" | .ceiling => "ceiling" | .sign => "sign"

end SymbolicFunction

inductive Symbolic where
  | symbol (name : String)
  /-- A finite double. -/
  | real (value : Float)
  | undefined
  | infinite (negative : Bool)
  | whole (n : Int)
  | ratio (num den : Nat)
  | pi
  | add (a b : Symbolic)
  | mul (a b : Symbolic)
  | pow (a b : Symbolic)
  | mod (a b : Symbolic)
  | call (f : SymbolicFunction) (a : Symbolic)
  /-- The logarithm to a base. -/
  | logBase (a base : Symbolic)
  /-- A function known by name alone. -/
  | applied (name : String) (args : List Symbolic)
  deriving Inhabited

namespace Symbolic

mutual

/-- The symbols that occur in a term, from left to right. -/
def symbols : Symbolic → List String
  | .symbol name => [name]
  | .add a b => a.symbols ++ b.symbols
  | .mul a b => a.symbols ++ b.symbols
  | .pow a b => a.symbols ++ b.symbols
  | .mod a b => a.symbols ++ b.symbols
  | .call _ a => a.symbols
  | .logBase a base => a.symbols ++ base.symbols
  | .applied _ args => symbolsAll args
  | _ => []

def symbolsAll : List Symbolic → List String
  | [] => []
  | a :: rest => a.symbols ++ symbolsAll rest

end

/-- The names of the symbols, each once, in order. -/
def freeSymbols (a : Symbolic) : List String := sorted a.symbols.eraseDups

end Symbolic
end ReversePolish

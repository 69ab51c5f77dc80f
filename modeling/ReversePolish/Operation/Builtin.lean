/-
The built-in operators and functions: what each is called, how many arguments
it takes and what it computes. The operators also have an associativity and a
precedence, for whoever parses infix text into tokens.
-/
import ReversePolish.Number.Elementary
import ReversePolish.Number.Remainder
import ReversePolish.Operation.Kernel

namespace ReversePolish

inductive BuiltinOperator where
  | add | subtract | multiply | divide | power | modulo | negate | plus
  deriving DecidableEq, Repr

namespace BuiltinOperator

def all : List BuiltinOperator :=
  [.add, .subtract, .multiply, .divide, .power, .modulo, .negate, .plus]

def symbol : BuiltinOperator → String
  | .add | .plus => "+"
  | .subtract | .negate => "-"
  | .multiply => "*"
  | .divide => "/"
  | .power => "^"
  | .modulo => "%"

def arity : BuiltinOperator → Nat
  | .negate | .plus => 1
  | _ => 2

def leftAssociative : BuiltinOperator → Bool
  | .power | .negate | .plus => false
  | _ => true

/-- A greater precedence binds more tightly. -/
def precedence : BuiltinOperator → Int
  | .add | .subtract => 500
  | .multiply | .divide | .modulo => 1000
  | .negate | .plus => 5000
  | .power => 10000

def signature : BuiltinOperator → Signature
  | .modulo => .named "_modulo" ["a", "b"]
  | .negate => .elementwise "negative" 1
  | .plus => .elementwise "positive" 1
  | _ => .counted 2

/-- The arithmetic is compiled to plain doubles; what is left works on cells. -/
def kernel (o : BuiltinOperator) : Kernel :=
  match o with
  | .add => .binary o.signature .plain (· + ·)
  | .subtract => .binary o.signature .plain (· - ·)
  | .multiply => .binary o.signature .plain (· * ·)
  | .divide => .binary o.signature .plain (· / ·)
  | .power => .binary o.signature .plain Float.pow
  | .modulo => .binary o.signature .cell remainder
  | .negate => .unary o.signature .cell (- ·)
  | .plus => .unary o.signature .cell id

def find? (symbol : String) (arity : Nat) : Option BuiltinOperator :=
  all.find? fun o => o.symbol = symbol ∧ o.arity = arity

end BuiltinOperator

inductive BuiltinFunction where
  | sin | cos | tan | cot | csc | sec | asin | acos | atan
  | sinh | cosh | tanh | csch | sech | coth
  | log | log2 | log10 | log1p | logb | exp | expm1 | sqrt | cbrt
  | abs | ceil | floor | pow | signum | toradian | todegree
  deriving DecidableEq, Repr

namespace BuiltinFunction

def all : List BuiltinFunction :=
  [.sin, .cos, .tan, .cot, .csc, .sec, .asin, .acos, .atan, .sinh, .cosh, .tanh, .csch, .sech,
   .coth, .log, .log2, .log10, .log1p, .logb, .exp, .expm1, .sqrt, .cbrt, .abs, .ceil, .floor,
   .pow, .signum, .toradian, .todegree]

def name : BuiltinFunction → String
  | .sin => "sin" | .cos => "cos" | .tan => "tan"
  | .cot => "cot" | .csc => "csc" | .sec => "sec"
  | .asin => "asin" | .acos => "acos" | .atan => "atan"
  | .sinh => "sinh" | .cosh => "cosh" | .tanh => "tanh"
  | .csch => "csch" | .sech => "sech" | .coth => "coth"
  | .log => "log" | .log2 => "log2" | .log10 => "log10" | .log1p => "log1p" | .logb => "logb"
  | .exp => "exp" | .expm1 => "expm1" | .sqrt => "sqrt" | .cbrt => "cbrt"
  | .abs => "abs" | .ceil => "ceil" | .floor => "floor" | .pow => "pow" | .signum => "signum"
  | .toradian => "toradian" | .todegree => "todegree"

def arity : BuiltinFunction → Nat
  | .logb | .pow => 2
  | _ => 1

def signature (f : BuiltinFunction) : Signature :=
  match f with
  | .cot | .csc | .sec | .csch | .sech | .coth => .named ("_" ++ f.name) ["x"]
  | .logb => .named "_logb" ["x", "base"]
  | .asin => .elementwise "arcsin" 1
  | .acos => .elementwise "arccos" 1
  | .atan => .elementwise "arctan" 1
  | .abs => .elementwise "absolute" 1
  | .signum => .elementwise "sign" 1
  | .toradian => .elementwise "radians" 1
  | .todegree => .elementwise "degrees" 1
  | .pow => .elementwise "power" 2
  | _ => .elementwise f.name 1

def kernel (f : BuiltinFunction) : Kernel :=
  match f with
  | .sin => .unary f.signature .cell Float.sin
  | .cos => .unary f.signature .cell Float.cos
  | .tan => .unary f.signature .cell Float.tan
  | .cot => .unary f.signature .cell Elementary.cot
  | .csc => .unary f.signature .cell Elementary.csc
  | .sec => .unary f.signature .cell Elementary.sec
  | .asin => .unary f.signature .cell Float.asin
  | .acos => .unary f.signature .cell Float.acos
  | .atan => .unary f.signature .cell Float.atan
  | .sinh => .unary f.signature .cell Float.sinh
  | .cosh => .unary f.signature .cell Float.cosh
  | .tanh => .unary f.signature .cell Float.tanh
  | .csch => .unary f.signature .cell Elementary.csch
  | .sech => .unary f.signature .cell Elementary.sech
  | .coth => .unary f.signature .cell Elementary.coth
  | .log => .unary f.signature .cell Float.log
  | .log2 => .unary f.signature .cell Float.log2
  | .log10 => .unary f.signature .cell Float.log10
  | .log1p => .unary f.signature .cell Elementary.log1p
  | .logb => .binary f.signature .cell Elementary.logBase
  | .exp => .unary f.signature .cell Float.exp
  | .expm1 => .unary f.signature .cell Elementary.expm1
  | .sqrt => .unary f.signature .cell Float.sqrt
  | .cbrt => .unary f.signature .cell Float.cbrt
  | .abs => .unary f.signature .cell Float.abs
  | .ceil => .unary f.signature .cell Float.ceil
  | .floor => .unary f.signature .cell Float.floor
  | .pow => .binary f.signature .cell Elementary.power
  | .signum => .unary f.signature .cell Elementary.sign
  | .toradian => .unary f.signature .cell Elementary.toRadians
  | .todegree => .unary f.signature .cell Elementary.toDegrees

def find? (name : String) : Option BuiltinFunction := all.find? (·.name = name)

/-- The names that no variable may take. -/
def names : List String := all.map name

end BuiltinFunction

/-- The names that are bound in every new expression, in the order in which they are listed. -/
def builtinConstants : List (String × Float) :=
  [("pi", Elementary.pi), ("π", Elementary.pi), ("e", Elementary.e),
   ("φ", Elementary.goldenRatio)]

end ReversePolish

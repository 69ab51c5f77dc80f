/-
Operations: the operators and functions that tokens apply. Each is built in or
defined by the caller. A definition has a serial number, and two operations
are the same only if they are the same built-in or have the same number,
whatever their names.
-/
import ReversePolish.Datum
import ReversePolish.Operation.Builtin

namespace ReversePolish

/-- How many arguments there are to be. A count is shown as it was given, and it need not have
been given as a plain whole number. -/
inductive Count where
  | whole (n : Nat)
  /-- A truth value, which counts as nought or one. -/
  | truth (b : Bool)
  /-- A number with a point. -/
  | pointed (n : Nat)
  deriving DecidableEq, Repr

namespace Count

def toNat : Count → Nat
  | .whole n => n
  | .truth b => b.toNat
  | .pointed n => n

/-- The datum that the count was given as. -/
def datum : Count → Datum
  | .whole n => .whole n
  | .truth b => .truth b
  | .pointed n => .real n.toFloat

def text : Count → String
  | .whole n => toString n
  | .truth b => Datum.truthWord b
  | .pointed n => toString n ++ ".0"

/-- Can values be counted off a stack by it? A number with a point is no place in a sequence. -/
def isIndex : Count → Bool
  | .pointed _ => false
  | _ => true

/-- Can it be the length of a new buffer? -/
def isLength : Count → Bool
  | .whole _ => true
  | _ => false

end Count

/-- An operator of the caller's own. -/
structure OperatorDefinition where
  serial : Nat
  symbol : String
  operands : Count
  /-- Whether it is, as it was given: nobody here groups operators. -/
  leftAssociative : Datum
  /-- The precedence as it was given. -/
  precedence : Datum
  kernel : Option Kernel
  unary_or_binary : operands.toNat = 1 ∨ operands.toNat = 2

structure FunctionDefinition where
  serial : Nat
  name : String
  arguments : Count
  kernel : Option Kernel

inductive Operator where
  | builtin (o : BuiltinOperator)
  | defined (d : OperatorDefinition)

inductive Function where
  | builtin (f : BuiltinFunction)
  | defined (d : FunctionDefinition)

inductive Operation where
  | operator (o : Operator)
  | function (f : Function)

namespace Operator

def symbol : Operator → String
  | .builtin o => o.symbol
  | .defined d => d.symbol

def operands : Operator → Count
  | .builtin o => .whole o.arity
  | .defined d => d.operands

def leftAssociative : Operator → Datum
  | .builtin o => .truth o.leftAssociative
  | .defined d => d.leftAssociative

def precedence : Operator → Datum
  | .builtin o => .whole o.precedence
  | .defined d => d.precedence

def same : Operator → Operator → Bool
  | .builtin o, .builtin o' => o == o'
  | .defined d, .defined d' =>
    d.serial == d'.serial && d.symbol == d'.symbol && d.operands == d'.operands
  | _, _ => false

def shown (o : Operator) : String :=
  "Operator(" ++ quoted o.symbol ++ ", num_operands=" ++ o.operands.text ++ ")"

/-- An operator takes one operand or two. -/
theorem arity_eq_one_or_two (o : Operator) : o.operands.toNat = 1 ∨ o.operands.toNat = 2 := by
  cases o with
  | builtin o => cases o <;> decide
  | defined d => exact d.unary_or_binary

end Operator

namespace Function

def name : Function → String
  | .builtin f => f.name
  | .defined d => d.name

def arguments : Function → Count
  | .builtin f => .whole f.arity
  | .defined d => d.arguments

def same : Function → Function → Bool
  | .builtin f, .builtin f' => f == f'
  | .defined d, .defined d' =>
    d.serial == d'.serial && d.name == d'.name && d.arguments == d'.arguments
  | _, _ => false

def shown (f : Function) : String :=
  "Function(" ++ quoted f.name ++ ", num_arguments=" ++ f.arguments.text ++ ")"

end Function

namespace Operation

def kind : Operation → Kind
  | .operator _ => .operator
  | .function _ => .function

def name : Operation → String
  | .operator o => o.symbol
  | .function f => f.name

def count : Operation → Count
  | .operator o => o.operands
  | .function f => f.arguments

/-- How many values an application takes. -/
def arity (op : Operation) : Nat := op.count.toNat

def kernel? : Operation → Option Kernel
  | .operator (.builtin o) => some o.kernel
  | .operator (.defined d) => d.kernel
  | .function (.builtin f) => some f.kernel
  | .function (.defined d) => d.kernel

/-- What the operation gives for arguments in the forms in which they come. -/
def applyTo (op : Operation) (args : List Scalar) : Except ApplyError Scalar :=
  match op.kernel? with
  | some kernel => kernel args
  | none => .error (.unimplemented op.kind op.name)

/-- The value of the operation for arguments that lie in a buffer. -/
def apply (op : Operation) (args : List Float) : Except ApplyError Float :=
  (op.applyTo (args.map (⟨·, .cell⟩))).map Scalar.value

/-- Is it of the caller's own making? -/
def isDefined : Operation → Bool
  | .operator (.defined _) => true
  | .function (.defined _) => true
  | _ => false

def same : Operation → Operation → Bool
  | .operator o, .operator o' => o.same o'
  | .function f, .function f' => f.same f'
  | _, _ => false

def shown : Operation → String
  | .operator o => o.shown
  | .function f => f.shown

end Operation

def Operator.find? (symbol : String) (arity : Nat) : Option Operator :=
  (BuiltinOperator.find? symbol arity).map .builtin

def Function.find? (name : String) : Option Function :=
  (BuiltinFunction.find? name).map .builtin

end ReversePolish

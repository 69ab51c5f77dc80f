/-
Making operators and functions from loosely typed parts. The parts are checked
in order and the first fault is reported.
-/
import ReversePolish.Name
import ReversePolish.Operation.Basic
import ReversePolish.Operation.Naming

namespace ReversePolish

inductive DefinitionError where
  /-- The symbol is empty or no text. -/
  | noSymbol
  /-- The symbol holds a character that no operator may have. -/
  | badSymbol (symbol : String)
  /-- The number of operands is neither one nor two. -/
  | badOperands (symbol : String) (given : Datum)
  | badName (given : Datum)
  /-- The number of arguments is no whole number, or a negative one. -/
  | badArguments (name : String)

def DefinitionError.message : DefinitionError → String
  | .noSymbol => "Operator symbol must be a non-empty string"
  | .badSymbol symbol => "The operator symbol '" ++ symbol ++ "' is invalid"
  | .badOperands symbol given =>
    "Operator '" ++ symbol ++ "' must have 1 or 2 operands, got " ++ given.message
  | .badName given => "The function name '" ++ given.message ++ "' is invalid"
  | .badArguments name =>
    "The number of function arguments can not be less than 0 for '" ++ name ++ "'"

/-- A datum as the number of operands: the numbers one and two, with or without a point, and
the truth value that counts as one. -/
def Count.operandsOf? : Datum → Option { c : Count // c.toNat = 1 ∨ c.toNat = 2 }
  | .whole 1 => some ⟨.whole 1, .inl rfl⟩
  | .whole 2 => some ⟨.whole 2, .inr rfl⟩
  | .truth true => some ⟨.truth true, .inl rfl⟩
  | .real x =>
    if x == 1.0 then some ⟨.pointed 1, .inl rfl⟩
    else if x == 2.0 then some ⟨.pointed 2, .inr rfl⟩
    else none
  | _ => none

/-- A datum as the number of arguments: a whole number that is not negative, or a truth
value. -/
def Count.argumentsOf? : Datum → Option Count
  | .whole n => if 0 ≤ n then some (.whole n.toNat) else none
  | .truth b => some (.truth b)
  | _ => none

def OperatorDefinition.make (serial : Nat) (symbol operands leftAssociative precedence : Datum)
    (kernel : Option Kernel) : Except DefinitionError OperatorDefinition :=
  match symbol with
  | .text symbol =>
    if symbol.isEmpty then .error .noSymbol
    else if !symbol.toList.all isOperatorChar then .error (.badSymbol symbol)
    else match Count.operandsOf? operands with
      | some count => .ok ⟨serial, symbol, count.val, leftAssociative, precedence, kernel, count.2⟩
      | none => .error (.badOperands symbol operands)
  | _ => .error .noSymbol

def FunctionDefinition.make (serial : Nat) (name arguments : Datum) (kernel : Option Kernel) :
    Except DefinitionError FunctionDefinition :=
  match name with
  | .text text =>
    if !isFunctionName text then .error (.badName name)
    else match Count.argumentsOf? arguments with
      | some count => .ok ⟨serial, text, count, kernel⟩
      | none => .error (.badArguments text)
  | _ => .error (.badName name)

/-- The built-in operator with a symbol and a number of operands, if they are data of one. -/
def Operator.ofData? (symbol operands : Datum) : Except Datum.KeyError (Option Operator) := do
  let symbol ← Name.ofDatum? symbol
  let operands ← Name.ofDatum? operands
  .ok (match symbol.key, operands.key with
    | .text symbol, .number x => x.whole?.bind fun n => Operator.find? symbol n.toNat
    | _, _ => none)

def Function.ofDatum? (name : Datum) : Except Datum.KeyError (Option Function) := do
  .ok (match (← Name.ofDatum? name).key with
    | .text name => Function.find? name
    | _ => none)

end ReversePolish

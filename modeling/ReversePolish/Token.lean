/-
Tokens of an expression in postfix order: numbers, names of variables, and
operations to apply to the values before them.
-/
import ReversePolish.Datum.Size
import ReversePolish.Name
import ReversePolish.Operation.Basic

namespace ReversePolish

inductive Token where
  | number (value : Float)
  | name (variableName : String)
  | operation (op : Operation)

/-- The types of tokens, in the order in which they are numbered. -/
inductive TokenType where
  | number
  | name
  | operator
  | function
  deriving DecidableEq, Repr

namespace TokenType

def all : List TokenType := [.number, .name, .operator, .function]

def label : TokenType → String
  | .number => "NUMBER"
  | .name => "VARIABLE"
  | .operator => "OPERATOR"
  | .function => "FUNCTION"

/-- The word under which tokens of the type are counted. -/
def word : TokenType → String
  | .number => "number"
  | .name => "variable"
  | .operator => "operator"
  | .function => "function"

def value : TokenType → Nat
  | .number => 0
  | .name => 1
  | .operator => 2
  | .function => 3

/-- The name of the class of such tokens, as messages have it. -/
def className : TokenType → String
  | .number => "NumberToken"
  | .name => "VariableToken"
  | .operator => "OperatorToken"
  | .function => "FunctionToken"

end TokenType

namespace Token

def type : Token → TokenType
  | .number _ => .number
  | .name _ => .name
  | .operation (.operator _) => .operator
  | .operation (.function _) => .function

/-- How many values the token takes from before it. -/
def arity : Token → Nat
  | .operation op => op.arity
  | _ => 0

/-- The variable that the token stands for, if it stands for one. -/
def variableName? : Token → Option String
  | .name n => some n
  | _ => none

def shown (t : Token) : String :=
  t.type.className ++ "(" ++ (match t with
    | .number x => Numeral.ofFloat x
    | .name n => quoted n
    | .operation op => quoted op.name ++ ", " ++ op.count.text) ++ ")"

def immutableMessage (t : Token) : String := t.type.className ++ " is immutable"

/-- Do two tokens stand for the same thing? Numbers are compared as numbers: the two zeros
are equal, and an undefined number is not equal to anything. -/
def agrees : Token → Token → Bool
  | .number x, .number y => x == y
  | .name m, .name n => m == n
  | .operation op, .operation op' => op.same op'
  | _, _ => false

end Token

/-! ## Tokens made from loosely typed parts -/

inductive TokenError where
  | value (cause : Datum.ReadError)
  | nameNotText
  | nameEmpty
  /-- What is given is no operation of the kind. -/
  | notOperation (kind : Kind)
  /-- What is given is nothing by which an operation could be looked up. -/
  | key (cause : Datum.KeyError)
  /-- What is given is no place among those from which one is taken. -/
  | place (cause : Datum.PlaceError)

def TokenError.message : TokenError → String
  | .value cause => cause.message
  | .nameNotText => "variable name must be a string"
  | .nameEmpty => "variable name must not be empty"
  | .notOperation .operator => "OperatorToken requires an Operator"
  | .notOperation .function => "FunctionToken requires a Function"
  | .key cause => cause.message
  | .place cause => cause.message

namespace Token

def ofNumber? (d : Datum) : Except TokenError Token :=
  match d.toFloat? with
  | .ok x => .ok (.number x)
  | .error e => .error (.value e)

def ofName? : Datum → Except TokenError Token
  | .text s => if s.isEmpty then .error .nameEmpty else .ok (.name s)
  | _ => .error .nameNotText

/-- A token for an operation, which must be there and of the kind asked for. -/
def ofOperation? (kind : Kind) : Option Operation → Except TokenError Token
  | some op => if op.kind = kind then .ok (.operation op) else .error (.notOperation kind)
  | none => .error (.notOperation kind)

end Token

/-! ## Sequences of tokens -/

/-- The names of the variables, each once, in the order of their first occurrence. -/
def variableNames (tokens : List Token) : List String :=
  (tokens.filterMap Token.variableName?).eraseDups

def countOfType (type : TokenType) (tokens : List Token) : Nat :=
  tokens.countP (·.type = type)

/-- Tokens that were made one after the other. A token may be referred to again by its place,
and then it is the very same token; two places hold equal tokens if they are the same place or
their tokens agree. -/
def equalAt (shelf : Array Token) (i j : Nat) : Bool :=
  i == j || (match shelf[i]?, shelf[j]? with
    | some t, some t' => t.agrees t'
    | _, _ => false)

def countDistinct (shelf : Array Token) (places : List Nat) : Nat :=
  (places.foldl (fun kept i => if kept.any (equalAt shelf i) then kept else i :: kept) []).length

end ReversePolish

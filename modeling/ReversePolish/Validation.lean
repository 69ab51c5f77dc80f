/-
Checking a token sequence without evaluating it: are the variables bound, and
can the operations find their arguments? The scan keeps only the number of
values, and it stops where that number falls below one.
-/
import ReversePolish.Token

namespace ReversePolish
namespace Validation

inductive Fault where
  | unbound (name : String)
  | tooFewArguments (functionName : String)
  | tooManyOperators
  | tooManyOperands
  deriving DecidableEq, Repr

def Fault.message : Fault → String
  | .unbound name => "The variable '" ++ name ++ "' has not been set"
  | .tooFewArguments functionName => "Not enough arguments for '" ++ functionName ++ "'"
  | .tooManyOperators => "Too many operators"
  | .tooManyOperands => "Too many operands"

def unbound (isBound : String → Bool) (tokens : List Token) : List Fault :=
  tokens.filterMap fun t => match t with
    | .name n => if isBound n then none else some (.unbound n)
    | _ => none

/-- The number of values after a token. A function of no arguments is counted as if it took
one. -/
def balanceAfter (count : Int) : Token → Int
  | .number _ => count + 1
  | .name _ => count + 1
  | .operation (.operator o) => if o.operands.toNat = 2 then count - 1 else count
  | .operation (.function f) =>
    if 1 < f.arguments.toNat then count - (f.arguments.toNat - 1) else count

/-- What a token finds missing among the values before it. Operators find it out from the
number of values that is left. -/
def shortage (count : Int) : Token → List Fault
  | .operation (.function f) =>
    if count < f.arguments.toNat then [.tooFewArguments f.name] else []
  | _ => []

/-- The scan, with `count` values before the tokens. -/
def structural (count : Int) : List Token → List Fault
  | [] => if 1 < count then [.tooManyOperands] else []
  | t :: rest =>
    let after := balanceAfter count t
    shortage count t ++
      (if after < 1 then [.tooManyOperators] else structural after rest)

end Validation

/-- The outcome of a check: what it comes to, and the faults in the order in which they were
found. -/
structure Validation where
  valid : Bool
  faults : List Validation.Fault
  deriving DecidableEq, Repr

namespace Validation

/-- The outcome that all valid sequences share. -/
def success : Validation := ⟨true, []⟩

/-- The outcome for the faults that were found: the shared one if there are none. -/
def ofFaults : List Fault → Validation
  | [] => success
  | faults => ⟨false, faults⟩

@[simp] theorem faults_ofFaults (faults : List Fault) : (ofFaults faults).faults = faults := by
  cases faults <;> rfl

@[simp] theorem valid_ofFaults (faults : List Fault) :
    (ofFaults faults).valid = faults.isEmpty := by
  cases faults <;> rfl

def errors (v : Validation) : List String := v.faults.map Fault.message

def summary (v : Validation) : String := "Validation failed: " ++ "; ".intercalate v.errors

end Validation

/-- Checks a token sequence; whether its variables are bound is looked at only on demand. -/
def validate (tokens : List Token) (isBound : String → Bool) (checkVariables : Bool) :
    Validation :=
  .ofFaults ((if checkVariables then Validation.unbound isBound tokens else []) ++
    Validation.structural 0 tokens)

end ReversePolish

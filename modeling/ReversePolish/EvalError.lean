/-
Why a token sequence has no value. The first three causes lie in the sequence
and its bindings, the fourth in an operation that was applied. The others lie
in a count that is no plain whole number, and arise where it is put to use.
-/
import ReversePolish.Datum.Size
import ReversePolish.Operation.Basic

namespace ReversePolish

inductive EvalError where
  | unbound (name : String)
  /-- An operation finds fewer values than it takes. -/
  | arity (kind : Kind) (name : String) (required : Count) (available : Nat)
  /-- Not exactly one value is left at the end. -/
  | malformed (remaining : Nat)
  | apply (cause : ApplyError)
  /-- The count picks no buffer out of the pooled ones. -/
  | notIndex (count : Count)
  /-- The count is no length for a new buffer. -/
  | notLength (count : Count)
  /-- The count cuts no arguments off a stack. -/
  | notSlice
  deriving DecidableEq, Repr

namespace EvalError

/-- What is said of a variable that has no value. -/
def noValue (name : String) : String := "No value has been set for the variable '" ++ name ++ "'."

def message : EvalError → String
  | .unbound name => noValue name
  | .arity kind name required available =>
    "Invalid number of " ++ kind.inputsWord ++ " available for '" ++ name ++ "' " ++ kind.word ++
      ": requires " ++ required.text ++ ", found " ++ toString available
  | .malformed 0 => "Expression produced no value on the operand stack."
  | .malformed remaining =>
    "Invalid number of items on the operand stack (" ++ toString remaining ++
      "). Might be caused by an invalid number of arguments for a function."
  | .apply cause => cause.message
  | .notIndex count => (Datum.PlaceError.notWhole count.datum).message
  | .notLength count => (Datum.LengthError.notWhole count.datum).message
  | .notSlice => "slice indices must be integers or None or have an __index__ method"

def tooFew (op : Operation) (available : Nat) : EvalError :=
  .arity op.kind op.name op.count available

end EvalError
end ReversePolish

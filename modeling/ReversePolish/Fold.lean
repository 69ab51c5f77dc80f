/-
Reading a token sequence once, from left to right, with a stack of values of
any kind. An interpretation says what numbers, names and applied operations
mean; `fold` puts the meanings together, and finds the sequences that have
none: an operation with too few values before it, or not exactly one value at
the end.
-/
import ReversePolish.EvalError
import ReversePolish.Token

namespace ReversePolish

/-- What tokens mean in a type of values. -/
structure Interpretation (α : Type u) where
  number : Float → α
  name : String → Except EvalError α
  apply : Operation → List α → Except EvalError α

namespace Interpretation

variable {α : Type u}

/-- One token, on a stack whose top is the head of the list. An operation takes the topmost
values, in the order in which they were pushed. -/
def step (I : Interpretation α) (stack : List α) : Token → Except EvalError (List α)
  | .number x => .ok (I.number x :: stack)
  | .name n => (I.name n).map (· :: stack)
  | .operation op =>
    if stack.length < op.arity then .error (.tooFew op stack.length)
    else if !op.count.isIndex then .error .notSlice
    else (I.apply op (stack.take op.arity).reverse).map (· :: stack.drop op.arity)

def steps (I : Interpretation α) : List α → List Token → Except EvalError (List α)
  | stack, [] => .ok stack
  | stack, t :: rest =>
    match I.step stack t with
    | .ok stack => I.steps stack rest
    | .error e => .error e

theorem steps_append (I : Interpretation α) (stack : List α) (ts us : List Token) :
    I.steps stack (ts ++ us) = match I.steps stack ts with
      | .ok stack => I.steps stack us
      | .error e => .error e := by
  induction ts generalizing stack with
  | nil => rfl
  | cons t ts ih =>
    simp only [List.cons_append, steps]
    cases I.step stack t with
    | ok stack => exact ih stack
    | error e => rfl

/-- The value of a sequence is the one that is left at its end. -/
def result : List α → Except EvalError α
  | [v] => .ok v
  | stack => .error (.malformed stack.length)

def fold (I : Interpretation α) (tokens : List Token) : Except EvalError α :=
  match I.steps [] tokens with
  | .ok stack => result stack
  | .error e => .error e

end Interpretation

/-- The meaning by computing from buffers, as an evaluation does: a name stands for its value, if
it has one, and an operation for what its kernel gives when all its arguments are cells. -/
def valuation (value? : String → Option Float) : Interpretation Float where
  number x := x
  name n := match value? n with
    | some x => .ok x
    | none => .error (.unbound n)
  apply op args := match op.apply args with
    | .ok x => .ok x
    | .error e => .error (.apply e)

/-- The meaning by computing without buffers: what tokens hold and names stand for is plain, and
what a kernel gives is handed on in its form. -/
def Scalar.valuation (value? : String → Option Float) : Interpretation Scalar where
  number x := ⟨x, .plain⟩
  name n := match value? n with
    | some x => .ok ⟨x, .plain⟩
    | none => .error (.unbound n)
  apply op args := match op.applyTo args with
    | .ok x => .ok x
    | .error e => .error (.apply e)

end ReversePolish

/-
Evaluating a token sequence with an operand stack and scratch buffers that are
kept from one evaluation to the next. An operation has its arguments moved
from the stack into a scratch buffer, the last one first, and is applied to
what the buffer then holds. A run also notes which operations were applied to
what, and what was reported on the way.
-/
import ReversePolish.EvalError
import ReversePolish.Log.Message
import ReversePolish.OperandStack
import ReversePolish.ScratchPool
import ReversePolish.Token

namespace ReversePolish

structure Call where
  op : Operation
  args : List Float

def Call.ofDefinition (c : Call) : Bool := c.op.isDefined && c.op.kernel?.isSome

structure Run where
  stack : OperandStack
  pool : ScratchPool
  /-- The calls so far, in order. -/
  calls : Array Call
  messages : Array Log.Message

namespace Run

/-- Nothing done yet; values left on the stack are dropped. -/
def start (stack : OperandStack) (pool : ScratchPool) : Run := ⟨stack.reset, pool, #[], #[]⟩

def report (level : Log.Level) (r : Run) (m : Log.Message) : Run :=
  if m.shownAt level then { r with messages := r.messages.push m } else r

/-- Stops with an error that lies in the sequence, and reports it. -/
def fail (level : Log.Level) (r : Run) (e : EvalError) : Run × Option EvalError :=
  (r.report level ⟨.debug, "Evaluation failed: " ++ e.message⟩, some e)

def push (r : Run) (x : Float) : Run := { r with stack := r.stack.push x }

/-- Moves values from the stack into the first `k` cells of a buffer, filling them from the
last to the first. -/
def stage (address : Nat) : Nat → Run → Run
  | 0, r => r
  | k + 1, r =>
    match r.stack.pop? with
    | some (x, stack) =>
      stage address k { r with stack := stack, pool := r.pool.write address k x }
    | none => r

/-- Asks the pool for a buffer, and reports it if the pool has none of that length. The pool
counts the request even if a count of its kind is given no buffer. -/
def acquire (level : Log.Level) (count : Count) (r : Run) : Run × Except EvalError Nat :=
  let (address, pool) := r.pool.acquire count.toNat
  let asked := { r with pool := pool }
  if count.toNat < r.pool.size then
    (asked, if count.isIndex then .ok address else .error (.notIndex count))
  else
    (asked.report level
      ⟨.debug, "Scratch pool miss: allocating buffer of size " ++ count.text⟩,
      if count.isLength then .ok address else .error (.notLength count))

/-- Applies an operation to the topmost values. -/
def apply (level : Log.Level) (op : Operation) (r : Run) : Run × Option EvalError :=
  if r.stack.count < op.arity then r.fail level (.tooFew op r.stack.count)
  else match r.acquire level op.count with
    | (r, .error e) => (r, some e)
    | (r, .ok address) =>
      let r := r.stage address op.arity
      let args := r.pool.contents address
      let r := { r with calls := r.calls.push ⟨op, args⟩ }
      match op.apply args with
      | .ok x => (r.push x, none)
      | .error e => (r, some (.apply e))

def token (level : Log.Level) (value? : String → Option Float) (r : Run) :
    Token → Run × Option EvalError
  | .number x => (r.push x, none)
  | .name n => match value? n with
    | some x => (r.push x, none)
    | none => r.fail level (.unbound n)
  | .operation op => r.apply level op

def tokens (level : Log.Level) (value? : String → Option Float) :
    Run → List Token → Run × Option EvalError
  | r, [] => (r, none)
  | r, t :: rest =>
    match r.token level value? t with
    | (r, none) => tokens level value? r rest
    | (r, some e) => (r, some e)

def finish (level : Log.Level) (r : Run) : Run × Except EvalError Float :=
  match r.stack.count, r.stack.pop? with
  | 1, some (x, stack) => ({ r with stack := stack }, .ok x)
  | remaining, _ =>
    let e : EvalError := .malformed remaining
    ((r.fail level e).1, .error e)

end Run

/-- Evaluates a token sequence, with the stack and the pool as an earlier evaluation may have
left them. -/
def evaluate (level : Log.Level) (value? : String → Option Float) (tokens : List Token)
    (stack : OperandStack) (pool : ScratchPool) : Run × Except EvalError Float :=
  match (Run.start stack pool).tokens level value? tokens with
  | (r, none) => r.finish level
  | (r, some e) => (r, .error e)

end ReversePolish

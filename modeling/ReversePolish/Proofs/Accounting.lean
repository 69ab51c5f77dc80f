/-
What an evaluation asks of the pool, and what it reports of it. Every
operation that the evaluation comes to and that finds enough values asks for
one buffer (`Run.executed`), before it is applied and whether or not it fails
then. The two counters of the pool and the messages keep account of just these
requests (`Run.Entered`): token by token, along a whole run, and at its end,
where a cause that lies in the sequence is reported once more.
-/
import ReversePolish.Proofs.Levels
import ReversePolish.Proofs.Outcome

namespace ReversePolish

namespace Log

@[simp] theorem heard_nil (level : Level) : heard level [] = [] := rfl

@[simp] theorem heard_verbose (ms : List Message) : heard .verbose ms = ms := by simp [heard]

end Log

def cause? : Except EvalError Float → Option EvalError
  | .ok _ => none
  | .error e => some e

namespace Run

/-! ## Requests and reports -/

/-- The operation of a token, if it has one that finds enough values in a run. -/
def request? (r : Run) (t : Token) : Option Operation :=
  t.operation?.filter fun op => op.arity ≤ r.stack.count

theorem request?_enough {r : Run} {op : Operation} (enough : op.arity ≤ r.stack.count) :
    r.request? (.operation op) = some op := by
  simp [request?, Token.operation?, enough]

theorem request?_short {r : Run} {op : Operation} (short : r.stack.count < op.arity) :
    r.request? (.operation op) = none := by
  simp [request?, Token.operation?, short]

/-- The operations that a run of the tokens executes: those that it comes to and that find enough
values there. -/
def executed (level : Log.Level) (value? : String → Option Float) :
    Run → List Token → List Operation
  | _, [] => []
  | r, t :: rest =>
    (r.request? t).toList ++ match r.token level value? t with
      | (s, none) => executed level value? s rest
      | (_, some _) => []

/-- What is reported of requests: a message for each that a pool of so many lengths does not meet,
with the length that was asked for. -/
def missReports (size : Nat) (ops : List Operation) : List Log.Message :=
  (ops.filter fun op => size ≤ op.arity).map fun op =>
    ⟨.debug, "Scratch pool miss: allocating buffer of size " ++ op.count.text⟩

/-- What is reported of an end: a message if there is a cause that lies in the sequence. -/
def endReports : Option EvalError → List Log.Message
  | some e => if e.inSequence then [⟨.debug, "Evaluation failed: " ++ e.message⟩] else []
  | none => []

/-- The run `s` comes after `r` and the requests of some operations, and has stopped or not: the
pool has counted each request as met or not met, and what a level wants to hear was reported. -/
structure Entered (level : Log.Level) (ops : List Operation) (stop : Option EvalError)
    (r s : Run) : Prop where
  size : s.pool.size = r.pool.size
  hits : s.pool.hits = r.pool.hits + ops.countP (·.arity < r.pool.size)
  misses : s.pool.misses = r.pool.misses + ops.countP (r.pool.size ≤ ·.arity)
  messages : s.messages.toList = r.messages.toList ++
    Log.heard level (missReports r.pool.size ops ++ endReports stop)

variable {level : Log.Level} {r s u : Run} {ops later : List Operation}
  {stop : Option EvalError}

theorem Entered.of_same (pool : s.pool = r.pool) (messages : s.messages = r.messages) :
    Entered level [] none r s := by
  refine ⟨by rw [pool], by rw [pool]; rfl, by rw [pool]; rfl, ?_⟩
  rw [messages]
  exact (List.append_nil _).symm

theorem Entered.trans (h : Entered level ops none r s) (h' : Entered level later stop s u) :
    Entered level (ops ++ later) stop r u := by
  refine ⟨h'.size.trans h.size, ?_, ?_, ?_⟩
  · rw [h'.hits, h.hits, h.size, List.countP_append, Nat.add_assoc]
  · rw [h'.misses, h.misses, h.size, List.countP_append, Nat.add_assoc]
  · rw [h'.messages, h.messages, h.size]
    simp [missReports, endReports]

theorem Entered.congr (h : Entered level ops stop r s) (size : u.pool.size = s.pool.size)
    (hits : u.pool.hits = s.pool.hits) (misses : u.pool.misses = s.pool.misses)
    (messages : u.messages = s.messages) : Entered level ops stop r u :=
  ⟨size.trans h.size, hits.trans h.hits, misses.trans h.misses, messages ▸ h.messages⟩

theorem Entered.stopped (h : Entered level ops none r s) {e : EvalError}
    (elsewhere : e.inSequence = false) : Entered level ops (some e) r s := by
  refine ⟨h.size, h.hits, h.misses, ?_⟩
  rw [h.messages]
  simp [endReports, elsewhere]

/-! ## One operation -/

theorem messages_report (level : Log.Level) (r : Run) (m : Log.Message) :
    (r.report level m).messages.toList = r.messages.toList ++ Log.heard level [m] := by
  rw [Log.heard_singleton]
  unfold report
  split
  · exact Array.toList_push
  · exact (List.append_nil _).symm

@[simp] theorem pool_report (level : Log.Level) (r : Run) (m : Log.Message) :
    (r.report level m).pool = r.pool := by
  unfold report
  split <;> rfl

theorem fail_entered (level : Log.Level) (r : Run) {e : EvalError} (within : e.inSequence = true) :
    Entered level [] (some e) r (r.fail level e).1 := by
  simp only [fail]
  refine ⟨by rw [pool_report], by rw [pool_report]; rfl, by rw [pool_report]; rfl, ?_⟩
  rw [messages_report]
  simp [missReports, endReports, within]

/-- A request is counted, and reported if the pool does not meet it. -/
theorem acquire_entered (level : Log.Level) (r : Run) (op : Operation) :
    Entered level [op] none r (r.acquire level op.count).1 := by
  have size := r.pool.size_acquire op.arity
  by_cases pooled : op.arity < r.pool.size
  · have met := ScratchPool.acquire_pooled pooled
    have asked : (r.acquire level op.count).1 = { r with pool := (r.pool.acquire op.arity).2 } := by
      simp only [acquire]
      exact congrArg Prod.fst (if_pos pooled)
    rw [asked]
    refine ⟨size, ?_, ?_, ?_⟩
    · simp [met, pooled]
    · simp [met, pooled]
    · simp [missReports, endReports, pooled]
  · obtain ⟨-, -, missed⟩ := ScratchPool.acquire_own (Nat.not_lt.mp pooled)
    have asked : (r.acquire level op.count).1 =
        ({ r with pool := (r.pool.acquire op.arity).2 } : Run).report level
          ⟨.debug, "Scratch pool miss: allocating buffer of size " ++ op.count.text⟩ := by
      simp only [acquire]
      exact congrArg Prod.fst (if_neg pooled)
    rw [asked]
    refine ⟨by rw [pool_report]; exact size, ?_, ?_, ?_⟩
    · simp [missed, pooled]
    · simp [missed, Nat.le_of_not_lt pooled]
    · rw [messages_report]
      simp [missReports, endReports, Nat.le_of_not_lt pooled]

theorem stage_entered (address : Nat) : ∀ (k : Nat) (r : Run),
    (r.stage address k).pool.size = r.pool.size ∧ (r.stage address k).pool.hits = r.pool.hits ∧
      (r.stage address k).pool.misses = r.pool.misses ∧
      (r.stage address k).messages = r.messages
  | 0, _ => ⟨rfl, rfl, rfl, rfl⟩
  | k + 1, r => by
    simp only [stage]
    split
    next x stack _ =>
      exact stage_entered address k { r with stack := stack, pool := r.pool.write address k x }
    next => exact ⟨rfl, rfl, rfl, rfl⟩

/-- An operation asks for a buffer once it has found enough values, and only then. -/
theorem apply_entered (level : Log.Level) (r : Run) (op : Operation) :
    Entered level (r.request? (.operation op)).toList (r.apply level op).2 r
      (r.apply level op).1 := by
  by_cases enough : op.arity ≤ r.stack.count
  · have entered := acquire_entered level r op
    rw [request?_enough enough]
    simp only [apply, Nat.not_lt.mpr enough, if_false]
    obtain ⟨messages, ha⟩ := r.acquire_eq level op.count
    cases served : op.count.servedBy r.pool.size with
    | false =>
      rw [served] at ha
      rw [ha] at entered ⊢
      exact entered.stopped (Count.inSequence_refusal _ _)
    | true =>
      rw [served] at ha
      rw [ha] at entered ⊢
      simp only [if_true]
      obtain ⟨size, hits, misses, same⟩ := stage_entered (r.pool.acquire op.count.toNat).1 op.arity
        { r with pool := (r.pool.acquire op.count.toNat).2, messages := messages }
      split
      next x _ => exact entered.congr size hits misses same
      next cause _ =>
        have elsewhere : (EvalError.apply cause).inSequence = false := rfl
        exact (entered.stopped elsewhere).congr size hits misses same
  · have short := Nat.lt_of_not_le enough
    rw [request?_short short]
    simp only [apply, short, if_true]
    exact fail_entered level r rfl

/-! ## Whole runs -/

/-- **One token** asks for a buffer if it is an operation that finds enough values. -/
theorem token_entered (level : Log.Level) (value? : String → Option Float) (r : Run) (t : Token) :
    Entered level (r.request? t).toList (r.token level value? t).2 r
      (r.token level value? t).1 := by
  cases t with
  | number x => exact .of_same rfl rfl
  | name n =>
    simp only [token]
    cases value? n with
    | some x => exact .of_same rfl rfl
    | none => exact fail_entered level r rfl
  | operation op => exact apply_entered level r op

/-- **A run** asks for as many buffers as it executes operations. -/
theorem tokens_entered (level : Log.Level) (value? : String → Option Float) (ts : List Token)
    (r : Run) :
    Entered level (r.executed level value? ts) (r.tokens level value? ts).2 r
      (r.tokens level value? ts).1 := by
  induction ts generalizing r with
  | nil => exact .of_same rfl rfl
  | cons t ts ih =>
    have first := token_entered level value? r t
    simp only [tokens, executed]
    cases ht : r.token level value? t with
    | mk s stop =>
    rw [ht] at first
    cases stop with
    | none => exact first.trans (ih s)
    | some e =>
      rw [List.append_nil]
      exact first

theorem finish_entered (level : Log.Level) (r : Run) :
    Entered level [] (cause? (r.finish level).2) r (r.finish level).1 := by
  unfold finish
  split
  · exact .of_same rfl rfl
  · exact fail_entered level r rfl

theorem executed_of_not_stopped {value? : String → Option Float} {ts : List Token}
    (h : (r.tokens level value? ts).2 = none) :
    r.executed level value? ts = ts.filterMap Token.operation? := by
  induction ts generalizing r with
  | nil => rfl
  | cons t ts ih =>
    simp only [tokens] at h
    simp only [executed]
    cases ht : r.token level value? t with
    | mk s stop =>
    rw [ht] at h
    cases stop with
    | some e => cases h
    | none =>
      simp only [ih h]
      cases t with
      | number x => rfl
      | name n => rfl
      | operation op =>
        by_cases enough : op.arity ≤ r.stack.count
        · rw [request?_enough enough]
          rfl
        · simp [token, apply, Nat.lt_of_not_le enough, fail] at ht

end Run

/-! ## Evaluations -/

/-- An evaluation asks for the buffers of the operations that it executes, from an account in which
nothing was reported yet. -/
theorem evaluate_entered (level : Log.Level) (value? : String → Option Float) (ts : List Token)
    (stack : OperandStack) (pool : ScratchPool) :
    Run.Entered level ((Run.start stack pool).executed level value? ts)
      (cause? (evaluate level value? ts stack pool).2) (.start stack pool)
      (evaluate level value? ts stack pool).1 := by
  have ran := Run.tokens_entered level value? ts (.start stack pool)
  unfold evaluate
  cases ht : (Run.start stack pool).tokens level value? ts with
  | mk r stop =>
  rw [ht] at ran
  cases stop with
  | some e => exact ran
  | none =>
    have ended := ran.trans (Run.finish_entered level r)
    rw [List.append_nil] at ended
    exact ended

theorem length_operations (ts : List Token) :
    (ts.filterMap Token.operation?).length =
      countOfType .operator ts + countOfType .function ts := by
  induction ts with
  | nil => rfl
  | cons t ts ih =>
    cases t with
    | number x => exact ih
    | name n => exact ih
    | operation op =>
      have found : (Token.operation op :: ts).filterMap Token.operation? =
        op :: ts.filterMap Token.operation? := rfl
      rw [found, List.length_cons, ih]
      simp only [countOfType]
      cases op with
      | operator o =>
        rw [List.countP_cons_of_pos rfl, List.countP_cons_of_neg (by simp [Token.type])]
        omega
      | function f =>
        rw [List.countP_cons_of_neg (by simp [Token.type]), List.countP_cons_of_pos rfl]
        omega

namespace Expression

def executed (e : Expression) (level : Log.Level) : List Operation :=
  (Run.start e.stack e.pool).executed level e.bindings.value? e.tokens

theorem executed_of_value {e : Expression} {level : Log.Level} {x : Float}
    (h : (e.evaluate level).2 = .ok x) :
    e.executed level = e.tokens.filterMap Token.operation? := by
  refine Run.executed_of_not_stopped ?_
  unfold evaluate ReversePolish.evaluate at h
  split at h
  next r ht => rw [ht]
  next r cause ht => cases h

/-- **The pool keeps account of an evaluation**, whatever the tokens, the bindings and the state
before, and however it ends. Its two counters grow by the numbers of executed operations whose
lengths are pooled and are not; so together they grow by all operations if there is a value. At the
greatest level the evaluation reports each request that the pool did not meet, in order, and then
its failure if the cause lies in the sequence, and nothing else. -/
theorem evaluate_accounts (e : Expression) (level : Log.Level) :
    ((e.step level .evaluate).1.pool.hits =
        e.pool.hits + (e.executed level).countP (·.arity < e.pool.size) ∧
      (e.step level .evaluate).1.pool.misses =
        e.pool.misses + (e.executed level).countP (e.pool.size ≤ ·.arity)) ∧
    (∀ x, (e.evaluate level).2 = .ok x →
      (e.step level .evaluate).1.pool.hits + (e.step level .evaluate).1.pool.misses =
        e.pool.hits + e.pool.misses +
          (countOfType .operator e.tokens + countOfType .function e.tokens)) ∧
    (e.step .verbose .evaluate).2.messages =
      Run.missReports e.pool.size (e.executed .verbose) ++
        Run.endReports (cause? (e.evaluate .verbose).2) := by
  have account (level : Log.Level) :=
    evaluate_entered level e.bindings.value? e.tokens e.stack e.pool
  have hits : (e.step level .evaluate).1.pool.hits =
    e.pool.hits + (e.executed level).countP (·.arity < e.pool.size) := (account level).hits
  have misses : (e.step level .evaluate).1.pool.misses =
    e.pool.misses + (e.executed level).countP (e.pool.size ≤ ·.arity) := (account level).misses
  refine ⟨⟨hits, misses⟩, fun x hx => ?_, ?_⟩
  · -- An operation is pooled or it is not, and all of them were executed.
    have all : (e.executed level).countP (·.arity < e.pool.size) +
        (e.executed level).countP (e.pool.size ≤ ·.arity) = (e.executed level).length := by
      rw [List.length_eq_countP_add_countP fun op => decide (op.arity < e.pool.size)]
      simp
    rw [congrArg List.length (executed_of_value hx), length_operations] at all
    omega
  · have messages := (account .verbose).messages
    rw [Log.heard_verbose] at messages
    exact messages

/-- A sequence that comes to a name without a value after all its operations. -/
def faltering : Expression := ofTokens (blended ++ [.name "nowhere"]) [] { scratchPoolSize := 2 }

theorem evaluate_accounts_faltering :
    (∃ x, (sample.evaluate .silent).2 = .ok x) ∧
      (sample.step .silent .evaluate).1.pool.hits + (sample.step .silent .evaluate).1.pool.misses =
        0 + 0 + (1 + 2) ∧
      (faltering.step .silent .evaluate).1.pool.hits = 0 + 1 ∧
      (faltering.step .silent .evaluate).1.pool.misses = 0 + 2 ∧
      (faltering.step .verbose .evaluate).2.messages =
        [⟨.debug, "Scratch pool miss: allocating buffer of size 3"⟩,
          ⟨.debug, "Scratch pool miss: allocating buffer of size 2"⟩,
          ⟨.debug, "Evaluation failed: No value has been set for the variable 'nowhere'."⟩] := by
  have found : ∃ x, (sample.evaluate .silent).2 = .ok x := ⟨_, rfl⟩
  obtain ⟨x, hx⟩ := found
  obtain ⟨-, together, -⟩ := evaluate_accounts sample .silent
  obtain ⟨⟨hits, misses⟩, -, messages⟩ := evaluate_accounts faltering .silent
  refine ⟨⟨x, hx⟩, together x hx, hits, misses, messages.trans ?_⟩
  rfl

end Expression
end ReversePolish

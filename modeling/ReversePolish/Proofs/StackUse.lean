/-
How much room the stack of an expression comes to have over its life. A run
grows its stack to the greatest number of values that it comes to and no
further (`Run.tokens_grown`). Every evaluation starts with an empty stack and
keeps the cells that there are, so the capacity is told by the greatest number
of values in all evaluations so far, however many there were, in whatever order
and however they ended (`Family.capacity_member`). That number is at most the
number of tokens that take no values.
-/
import Mathlib.Data.List.Induction
import ReversePolish.Proofs.Acceptance
import ReversePolish.Proofs.Families
import ReversePolish.Proofs.Growth

namespace ReversePolish

/-! ## Tokens that take no values -/

/-- How many of the tokens are numbers, names or functions of no arguments. -/
def leaves (ts : List Token) : Nat :=
  countOfType .number ts + countOfType .name ts + ts.countP Token.isNullary

theorem leaves_append (ts us : List Token) : leaves (ts ++ us) = leaves ts + leaves us := by
  simp only [leaves, countOfType, List.countP_append]
  omega

theorem one_le_arity_add_leaves (t : Token) : 1 ≤ t.arity + leaves [t] := by
  cases t with
  | number x => exact Nat.le_refl 1
  | name n => exact Nat.le_refl 1
  | operation op =>
    cases op with
    | operator o =>
      have takes : 1 ≤ (Token.operation (.operator o)).arity := by
        rcases o.arity_eq_one_or_two with one | two
        · exact Nat.le_of_eq one.symm
        · exact Nat.le_trans (Nat.le_succ 1) (Nat.le_of_eq two.symm)
      exact Nat.le_add_right_of_le takes
    | function f =>
      by_cases nullary : f.arguments.toNat = 0
      · have leaf : leaves [.operation (.function f)] = 1 := by
          simp [leaves, countOfType, Token.type, Token.isNullary, nullary]
        rw [leaf]
        exact Nat.le_add_left 1 _
      · exact Nat.le_add_right_of_le (Nat.one_le_iff_ne_zero.mpr nullary)

/-! ## What a token does to a stack -/

/-- A token that takes `k` values has met a stack: it passes with these values off and one on, or it
is stopped with none on. No cells are given up. -/
inductive Meets (k : Nat) (s t : OperandStack) : Option EvalError → Prop
  | passes {u : OperandStack} (x : Float) (enough : k ≤ s.count) (count : u.count = s.count - k)
    (capacity : u.capacity = s.capacity) (pushed : t = u.push x) : Meets k s t none
  | stopped (cause : EvalError) (fewer : t.count ≤ s.count) (capacity : t.capacity = s.capacity) :
    Meets k s t (some cause)

theorem Meets.count {k : Nat} {s t : OperandStack} (h : Meets k s t none) :
    t.count + k = s.count + 1 := by
  cases h with
  | passes x enough count capacity pushed =>
    rw [pushed, OperandStack.count_push, count]
    omega

/-- It grows the stack to what it leaves on it, and no further. -/
theorem Meets.grown {first peak k : Nat} {s t : OperandStack} (h : Meets k s t none)
    (grown : OperandStack.Grown first peak s) (pos : 0 < first) :
    OperandStack.Grown first (max peak t.count) t := by
  cases h with
  | passes x enough count capacity pushed =>
    rw [pushed, OperandStack.count_push]
    exact (grown.shrink (by rw [count]; exact Nat.sub_le ..) capacity).push pos x

namespace OperandStack

theorem count_of_pop?_eq_some {s t : OperandStack} {x : Float} (h : s.pop? = some (x, t)) :
    t.count = s.count - 1 := by
  have taken := congrArg List.length (toList_of_pop?_eq_some h)
  rw [length_toList, List.length_append, length_toList, List.length_singleton] at taken
  omega

theorem count_of_pop?_eq_none {s : OperandStack} (h : s.pop? = none) : s.count = 0 := by
  rw [← length_toList, s.pop?_eq_none_iff.mp h, List.length_nil]

end OperandStack

namespace Run

theorem stack_stage (address : Nat) : ∀ (k : Nat) (r : Run),
    (r.stage address k).stack.count = r.stack.count - k ∧
      (r.stage address k).stack.capacity = r.stack.capacity
  | 0, _ => ⟨rfl, rfl⟩
  | k + 1, r => by
    simp only [stage]
    cases h : r.stack.pop? with
    | none =>
      have empty := OperandStack.count_of_pop?_eq_none h
      exact ⟨by simp only [empty, Nat.zero_sub], rfl⟩
    | some popped =>
      obtain ⟨x, stack⟩ := popped
      obtain ⟨count, capacity⟩ :=
        stack_stage address k { r with stack := stack, pool := r.pool.write address k x }
      have one := OperandStack.count_of_pop?_eq_some h
      refine ⟨?_, capacity.trans (OperandStack.capacity_of_pop?_eq_some h)⟩
      rw [count, one]
      omega

theorem apply_meets (level : Log.Level) (r : Run) (op : Operation) :
    Meets op.arity r.stack (r.apply level op).1.stack (r.apply level op).2 := by
  by_cases enough : op.arity ≤ r.stack.count
  · obtain ⟨messages, asked⟩ := r.acquire_eq level op.count
    simp only [apply, Nat.not_lt.mpr enough, if_false, asked]
    cases op.count.servedBy r.pool.size with
    | false => exact .stopped _ (Nat.le_refl _) rfl
    | true =>
      simp only [if_true]
      obtain ⟨count, capacity⟩ := stack_stage (r.pool.acquire op.count.toNat).1 op.arity
        { r with pool := (r.pool.acquire op.count.toNat).2, messages := messages }
      split
      next x _ => exact .passes x enough count capacity rfl
      next cause _ => exact .stopped _ (by rw [count]; exact Nat.sub_le ..) capacity
  · have short := Nat.lt_of_not_le enough
    obtain ⟨messages, failed⟩ := r.fail_eq level (.tooFew op r.stack.count)
    simp only [apply, short, if_true, failed]
    exact .stopped _ (Nat.le_refl _) rfl

/-- **One token** takes its values off the stack and puts one on, or stops. -/
theorem token_meets (level : Log.Level) (value? : String → Option Float) (r : Run) (t : Token) :
    Meets t.arity r.stack (r.token level value? t).1.stack (r.token level value? t).2 := by
  cases t with
  | number x => exact .passes x (Nat.zero_le _) rfl rfl rfl
  | name n =>
    simp only [token]
    cases value? n with
    | some x => exact .passes x (Nat.zero_le _) rfl rfl rfl
    | none =>
      obtain ⟨messages, failed⟩ := r.fail_eq level (.unbound n)
      simp only [failed]
      exact .stopped _ (Nat.le_refl _) rfl
  | operation op => exact apply_meets level r op

/-! ## The greatest number of values in a run -/

/-- The greatest number of values that a run of the tokens comes to, after any of them that pass or
before the first. -/
def peak (level : Log.Level) (value? : String → Option Float) : Run → List Token → Nat
  | r, [] => r.stack.count
  | r, t :: rest =>
    max r.stack.count (match r.token level value? t with
      | (s, none) => peak level value? s rest
      | (_, some _) => 0)

/-- So many values are on the stack when some of the first tokens were run and all passed. -/
def Comes (level : Log.Level) (value? : String → Option Float) (r : Run) (ts : List Token)
    (d : Nat) : Prop :=
  ∃ before s, before <+: ts ∧ r.tokens level value? before = (s, none) ∧ s.stack.count = d

section
variable {level : Log.Level} {value? : String → Option Float}

theorem comes_start (r : Run) (ts : List Token) : Comes level value? r ts r.stack.count :=
  ⟨[], r, List.nil_prefix, rfl, rfl⟩

theorem comes_nil {r : Run} {d : Nat} : Comes level value? r [] d ↔ d = r.stack.count := by
  constructor
  · rintro ⟨before, s, first, run, rfl⟩
    cases List.prefix_nil.mp first
    cases run
    rfl
  · rintro rfl
    exact comes_start r []

theorem comes_pass {r s : Run} {t : Token} {rest : List Token} {d : Nat}
    (pass : r.token level value? t = (s, none)) :
    Comes level value? r (t :: rest) d ↔ d = r.stack.count ∨ Comes level value? s rest d := by
  constructor
  · rintro ⟨before, last, first, run, rfl⟩
    rcases List.prefix_cons_iff.mp first with rfl | ⟨before, rfl, shorter⟩
    · cases run
      exact .inl rfl
    · rw [tokens, pass] at run
      exact .inr ⟨before, last, shorter, run, rfl⟩
  · rintro (rfl | ⟨before, last, first, run, rfl⟩)
    · exact comes_start r _
    · refine ⟨t :: before, last, List.cons_prefix_cons.mpr ⟨rfl, first⟩, ?_, rfl⟩
      rw [tokens, pass]
      exact run

theorem comes_stop {r s : Run} {t : Token} {rest : List Token} {cause : EvalError} {d : Nat}
    (stop : r.token level value? t = (s, some cause)) :
    Comes level value? r (t :: rest) d ↔ d = r.stack.count := by
  constructor
  · rintro ⟨before, last, first, run, rfl⟩
    rcases List.prefix_cons_iff.mp first with rfl | ⟨before, rfl, shorter⟩
    · cases run
      rfl
    · rw [tokens, stop] at run
      cases run
  · rintro rfl
    exact comes_start r _

theorem peak_pass {r s : Run} {t : Token} (rest : List Token)
    (pass : r.token level value? t = (s, none)) :
    r.peak level value? (t :: rest) = max r.stack.count (s.peak level value? rest) := by
  rw [peak, pass]

theorem peak_stop {r s : Run} {t : Token} {cause : EvalError} (rest : List Token)
    (stop : r.token level value? t = (s, some cause)) :
    r.peak level value? (t :: rest) = r.stack.count := by
  rw [peak, stop]
  exact Nat.max_zero _

end

section
variable (level : Log.Level) (value? : String → Option Float)

theorem count_le_peak (r : Run) (ts : List Token) : r.stack.count ≤ r.peak level value? ts := by
  cases ts with
  | nil => exact Nat.le_refl _
  | cons t rest => exact Nat.le_max_left ..

/-- It is come to, and no greater one is. -/
theorem isGreatest_peak (r : Run) (ts : List Token) :
    IsGreatest {d | Comes level value? r ts d} (r.peak level value? ts) := by
  induction ts generalizing r with
  | nil =>
    have only : {d | Comes level value? r [] d} = {r.stack.count} := Set.ext fun d => comes_nil
    rw [only]
    exact isGreatest_singleton
  | cons t rest ih =>
    cases ht : r.token level value? t with
    | mk s stop =>
    cases stop with
    | some cause =>
      have only : {d | Comes level value? r (t :: rest) d} = {r.stack.count} :=
        Set.ext fun d => comes_stop ht
      rw [only, peak_stop rest ht]
      exact isGreatest_singleton
    | none =>
      have both : {d | Comes level value? r (t :: rest) d} =
          {r.stack.count} ∪ {d | Comes level value? s rest d} := Set.ext fun d => comes_pass ht
      rw [both, peak_pass rest ht]
      exact isGreatest_singleton.union (ih s)

theorem peak_le (r : Run) (ts : List Token) :
    r.peak level value? ts ≤ r.stack.count + leaves ts := by
  induction ts generalizing r with
  | nil => exact Nat.le_add_right ..
  | cons t rest ih =>
    cases ht : r.token level value? t with
    | mk s stop =>
    have met := token_meets level value? r t
    rw [ht] at met
    cases stop with
    | some cause =>
      rw [peak_stop rest ht]
      exact Nat.le_add_right ..
    | none =>
      have later := ih s
      have count : s.stack.count + t.arity = r.stack.count + 1 := met.count
      have one := one_le_arity_add_leaves t
      have all : leaves (t :: rest) = leaves [t] + leaves rest := leaves_append [t] rest
      rw [peak_pass rest ht]
      omega

/-- **A run grows the stack to what it comes to**, and no further. -/
theorem tokens_grown {first most : Nat} (pos : 0 < first) (r : Run) (ts : List Token)
    (grown : OperandStack.Grown first most r.stack) :
    OperandStack.Grown first (max most (r.peak level value? ts))
      (r.tokens level value? ts).1.stack := by
  induction ts generalizing r most with
  | nil =>
    rw [peak, Nat.max_eq_left grown.held]
    exact grown
  | cons t rest ih =>
    have met := token_meets level value? r t
    rw [tokens]
    cases ht : r.token level value? t with
    | mk s stop =>
    rw [ht] at met
    cases stop with
    | some cause =>
      rw [peak_stop rest ht, Nat.max_eq_left grown.held]
      cases met with
      | stopped cause fewer capacity => exact grown.shrink fewer capacity
    | none =>
      have here := grown.held
      have next := count_le_peak level value? s rest
      -- The greatest number so far is handed on through the rest of the run.
      have later := ih s (met.grown grown pos)
      have same : max (max most s.stack.count) (s.peak level value? rest) =
          max most (max r.stack.count (s.peak level value? rest)) := by omega
      rw [same, ← peak_pass rest ht] at later
      exact later

theorem finish_grown {first most : Nat} (r : Run) (grown : OperandStack.Grown first most r.stack) :
    OperandStack.Grown first most (r.finish level).1.stack := by
  unfold finish
  split
  next x stack one popped =>
    refine grown.shrink ?_ (OperandStack.capacity_of_pop?_eq_some popped)
    rw [OperandStack.count_of_pop?_eq_some popped]
    exact Nat.sub_le ..
  next =>
    obtain ⟨messages, failed⟩ := r.fail_eq level (.malformed r.stack.count)
    simp only [failed]
    exact grown

end

end Run

/-! ## Evaluations -/

/-- **An evaluation grows the stack to what it comes to**; what was on the stack before is dropped
first. -/
theorem evaluate_grown {first most : Nat} (pos : 0 < first) (level : Log.Level)
    (value? : String → Option Float) (ts : List Token) {stack : OperandStack} (pool : ScratchPool)
    (grown : OperandStack.Grown first most stack) :
    OperandStack.Grown first (max most ((Run.start stack pool).peak level value? ts))
      (evaluate level value? ts stack pool).1.stack := by
  have start : OperandStack.Grown first most (Run.start stack pool).stack :=
    grown.shrink (Nat.zero_le _) stack.capacity_reset
  have ran := Run.tokens_grown level value? pos _ ts start
  unfold evaluate
  cases h : (Run.start stack pool).tokens level value? ts with
  | mk r stop =>
  rw [h] at ran
  cases stop with
  | none => exact Run.finish_grown level r ran
  | some cause => exact ran

namespace Expression

/-- So many values are on the stack in an evaluation of the expression, when some of its first
tokens were run and all passed. -/
def Comes (e : Expression) (level : Log.Level) (d : Nat) : Prop :=
  (Run.start e.stack e.pool).Comes level e.bindings.value? e.tokens d

/-- The greatest number of values that the evaluation comes to. -/
def peak (level : Log.Level) (e : Expression) : Nat :=
  (Run.start e.stack e.pool).peak level e.bindings.value? e.tokens

theorem peak_le (level : Log.Level) (e : Expression) : e.peak level ≤ leaves e.tokens :=
  Nat.le_trans (Run.peak_le level _ _ _) (Nat.le_of_eq (Nat.zero_add _))

def peaks (level : Log.Level) : List Expression → Nat
  | [] => 0
  | e :: rest => max (e.peak level) (peaks level rest)

theorem peaks_append (level : Log.Level) (ran later : List Expression) :
    peaks level (ran ++ later) = max (peaks level ran) (peaks level later) := by
  induction ran with
  | nil => exact (Nat.zero_max _).symm
  | cons e rest ih => rw [List.cons_append, peaks, peaks, ih, Nat.max_assoc]

theorem isGreatest_peaks (level : Log.Level) (ran : List Expression) :
    IsGreatest {d | d = 0 ∨ ∃ e ∈ ran, e.Comes level d} (peaks level ran) := by
  induction ran with
  | nil =>
    have only : {d | d = 0 ∨ ∃ e ∈ ([] : List Expression), e.Comes level d} = {0} := by simp
    rw [only]
    exact isGreatest_singleton
  | cons e rest ih =>
    have both : {d | d = 0 ∨ ∃ x ∈ e :: rest, x.Comes level d} =
        {d | e.Comes level d} ∪ {d | d = 0 ∨ ∃ x ∈ rest, x.Comes level d} := by
      ext d
      simp only [List.exists_mem_cons_iff, Set.mem_ofPred_eq, Set.mem_union]
      exact or_left_comm
    rw [both]
    exact (Run.isGreatest_peak level e.bindings.value? (Run.start e.stack e.pool) e.tokens).union ih

/-! ## Steps -/

/-- The expression as it is evaluated for each value of a sweep: up to the first value that is
refused or for which the evaluation fails. -/
def evaluatedBySweep (level : Log.Level) (name : Name) : Expression → List Datum → List Expression
  | _, [] => []
  | e, value :: rest =>
    match e.bind name value with
    | .ok bound =>
      bound :: match bound.evaluate level with
        | (run, .ok _) => evaluatedBySweep level name (bound.afterRun run) rest
        | (_, .error _) => []
    | .error _ => []

/-- The expression as it is evaluated in a step, for each evaluation, in order. -/
def evaluatedBy (level : Log.Level) (e : Expression) : Step → List Expression
  | .evaluate | .evaluateOn _ => [e]
  | .sweep given values => match Name.ofDatum? given, values.items? with
    | .ok name, .ok values => e.evaluatedBySweep level name values
    | _, _ => []
  | _ => []

/-- One expression comes of another by evaluations of its tokens, which have grown the stack to what
they came to. -/
structure Ran (level : Log.Level) (e : Expression) (ran : List Expression) (e' : Expression) :
    Prop where
  grown : ∀ {first most : Nat}, 0 < first → OperandStack.Grown first most e.stack →
    OperandStack.Grown first (max most (peaks level ran)) e'.stack
  tokens : ∀ x ∈ ran, x.tokens = e.tokens
  keeps : e'.tokens = e.tokens

theorem Ran.of_stack {level : Log.Level} {e e' : Expression} (stack : e'.stack = e.stack)
    (tokens : e'.tokens = e.tokens) : Ran level e [] e' where
  grown := by
    intro first most _ grown
    rw [stack, peaks, Nat.max_zero]
    exact grown
  tokens := by simp
  keeps := tokens

theorem Ran.rebound {level : Log.Level} {e e' : Expression}
    (h : e' = { e with bindings := e'.bindings }) : Ran level e [] e' := by
  rw [h]
  exact .of_stack rfl rfl

theorem Ran.trans {level : Log.Level} {e e' e'' : Expression} {ran later : List Expression}
    (h : Ran level e ran e') (h' : Ran level e' later e'') : Ran level e (ran ++ later) e'' where
  grown := by
    intro first most pos grown
    rw [peaks_append, ← Nat.max_assoc]
    exact h'.grown pos (h.grown pos grown)
  tokens := List.forall_mem_append.mpr ⟨h.tokens, fun x hx => (h'.tokens x hx).trans h.keeps⟩
  keeps := h'.keeps.trans h.keeps

theorem ran_bindAll (level : Log.Level) (e : Expression) (entries : List (Name × Datum)) :
    Ran level e [] (e.bindAll entries).1 := .rebound (bindAll_eq_with e entries)

theorem ran_afterRun (level : Log.Level) (e : Expression) :
    Ran level e [e] (e.afterRun (e.evaluate level).1) where
  grown := by
    intro first most pos grown
    rw [peaks, peaks, Nat.max_zero]
    exact evaluate_grown pos level e.bindings.value? e.tokens e.pool grown
  tokens := by simp
  keeps := rfl

theorem ran_sweepStep (level : Log.Level) (name : Name) (values : List Datum) :
    ∀ (e : Expression) (found : List Float),
      Ran level e (e.evaluatedBySweep level name values)
        (sweepStep level name e found values).1 := by
  induction values with
  | nil => exact fun e found => .of_stack rfl rfl
  | cons value rest ih =>
    intro e found
    cases h : e.bind name value with
    | error cause =>
      simp only [evaluatedBySweep, sweepStep, bindStep, bindAll, h]
      exact .of_stack rfl rfl
    | ok bound =>
      have ran := (Ran.rebound (bind_eq_with h)).trans (ran_afterRun level bound)
      simp only [evaluatedBySweep, sweepStep, bindStep, bindAll, h]
      cases hr : bound.evaluate level with
      | mk run outcome =>
      rw [hr] at ran
      cases outcome with
      | error cause => exact ran
      | ok x => exact ran.trans (ih (bound.afterRun run) (x :: found))

theorem ran_named_nil {level : Log.Level} {e : Expression} {given : Datum}
    {go : Name → Expression × Report} (h : ∀ name, Ran level e [] (go name).1) :
    Ran level e [] (e.named given go).1 := by
  unfold named
  split
  · exact h _
  · exact .of_stack rfl rfl

/-- **A step grows the stack to what its evaluations come to.** -/
theorem ran_step (level : Log.Level) (e : Expression) (s : Step) :
    Ran level e (e.evaluatedBy level s) (e.step level s).1 := by
  cases s with
  | evaluate => exact ran_afterRun level e
  | evaluateOn executor => exact ran_afterRun level e
  | bind given value => exact ran_named_nil fun name => ran_bindAll level e [(name, value)]
  | bindAll entries =>
    simp only [evaluatedBy, step]
    split
    · exact ran_bindAll level e _
    · exact .of_stack rfl rfl
  | sweep given values =>
    simp only [evaluatedBy, step, named]
    cases values.items? with
    | error cause =>
      cases Name.ofDatum? given <;> exact .of_stack rfl rfl
    | ok items =>
      cases items with
      | nil => cases Name.ofDatum? given <;> exact .of_stack rfl rfl
      | cons value rest =>
        cases Name.ofDatum? given with
        | error cause => exact .of_stack rfl rfl
        | ok name => exact ran_sweepStep level name (value :: rest) e []
  | value given => exact ran_named_nil fun _ => .of_stack rfl rfl
  | cell given => exact ran_named_nil fun _ => .of_stack rfl rfl
  | render =>
    simp only [evaluatedBy, step, render]
    split
    · exact .of_stack rfl rfl
    · split <;> exact .of_stack rfl rfl
  | bindings | userNames | variableNames | validate | symbolic | freeSymbols | size | tokens
  | shown | clearStats => exact .of_stack rfl rfl

/-- An expression over such tokens and settings that was evaluated as `ran` tells. -/
structure Worked (level : Log.Level) (ts : List Token) (c : Config) (ran : List Expression)
    (e : Expression) : Prop where
  tokens : e.tokens = ts
  config : e.config = c
  grown : OperandStack.Grown c.initialStackCapacity (peaks level ran) e.stack
  each : ∀ x ∈ ran, x.tokens = ts

section
variable {level : Log.Level} {ts : List Token} {c : Config} {ran : List Expression}
  {e : Expression}

theorem Worked.ofTokens (userNames : List Name) :
    Worked level ts c [] (ofTokens ts userNames c) :=
  ⟨rfl, rfl, .ofCapacity c.capacity_pos, by simp⟩

theorem Worked.copy (h : Worked level ts c ran e) : Worked level ts c [] e.copy := by
  obtain ⟨rfl, rfl, -, -⟩ := h
  exact ⟨rfl, rfl, .ofCapacity e.config.capacity_pos, by simp⟩

theorem Worked.step (h : Worked level ts c ran e) (s : Step) :
    Worked level ts c (ran ++ e.evaluatedBy level s) (e.step level s).1 := by
  have keeps := keeps_step level e s
  have more := ran_step level e s
  refine ⟨keeps.tokens.trans h.tokens, keeps.config.trans h.config, ?_, ?_⟩
  · rw [peaks_append]
    exact more.grown c.capacity_pos h.grown
  · exact List.forall_mem_append.mpr ⟨h.each, fun x hx => (more.tokens x hx).trans h.tokens⟩

theorem Worked.peaks_le (h : Worked level ts c ran e) : peaks level ran ≤ leaves ts := by
  have each := h.each
  clear h
  induction ran with
  | nil => exact Nat.zero_le _
  | cons x rest ih =>
    obtain ⟨first, later⟩ := List.forall_mem_cons.mp each
    have here := x.peak_le level
    rw [first] at here
    exact Nat.max_le.mpr ⟨here, ih later⟩

end

end Expression

/-! ## Families -/

namespace Family

variable (level : Log.Level)

/-- A member as it is evaluated in an event, for each evaluation, in order. -/
def evaluatedIn (k : Nat) (f : Family) (ev : Event) : List Expression :=
  match ev.stepOf? k, f[k]? with
  | some s, some e => e.evaluatedBy level s
  | _, _ => []

/-- A member as it is evaluated in a script, for each of its evaluations, in order. -/
def evaluatedBy (k : Nat) : Family → List Event → List Expression
  | _, [] => []
  | f, ev :: rest => evaluatedIn level k f ev ++ evaluatedBy k (happen level f ev) rest

variable {level}

theorem evaluatedBy_concat (k : Nat) (f : Family) (script : List Event) (ev : Event) :
    evaluatedBy level k f (script ++ [ev]) =
      evaluatedBy level k f script ++ evaluatedIn level k (after level f script) ev := by
  induction script generalizing f with
  | nil => exact List.append_nil _
  | cons first rest ih =>
    rw [List.cons_append, evaluatedBy, evaluatedBy, ih, List.append_assoc]
    rfl

theorem evaluatedBy_unborn {k : Nat} {f : Family} {script : List Event}
    (unborn : (after level f script).length ≤ k) : evaluatedBy level k f script = [] := by
  induction script generalizing f with
  | nil => rfl
  | cons ev rest ih =>
    have none : f[k]? = none :=
      List.getElem?_eq_none (Nat.le_trans (length_le_after f (ev :: rest)) unborn)
    rw [evaluatedBy, evaluatedIn, none, ih unborn]
    cases ev.stepOf? k <;> rfl

variable {ts : List Token} {c : Config}

/-- If every member has worked as it is told, so it has after one more event. -/
theorem worked_happen {f : Family} {ran : Nat → List Expression}
    (worked : ∀ {k : Nat} {e : Expression}, f[k]? = some e → e.Worked level ts c (ran k))
    (unborn : ∀ {k : Nat}, f.length ≤ k → ran k = []) (ev : Event) {k : Nat} {e : Expression}
    (member : (happen level f ev)[k]? = some e) :
    e.Worked level ts c (ran k ++ evaluatedIn level k f ev) := by
  rcases member_happen member with ⟨old, found, rfl⟩ | ⟨i, source, rfl, rfl, found, rfl⟩
  · have same := worked found
    cases ev with
    | on i s =>
      by_cases own : i = k
      · simp only [become, own, evaluatedIn, Event.stepOf?, if_true, found]
        exact same.step s
      · simp only [become, own, evaluatedIn, Event.stepOf?, if_false, List.append_nil]
        exact same
    | leftover i cells =>
      simp only [become, evaluatedIn, Event.stepOf?, List.append_nil]
      split
      · exact ⟨same.tokens, same.config, same.grown.withLeftover _, same.each⟩
      · exact same
    | copy i =>
      simp only [become, evaluatedIn, Event.stepOf?, List.append_nil]
      exact same
  · simp only [unborn (Nat.le_refl _), evaluatedIn, Event.stepOf?, List.append_nil]
    exact (worked found).copy

/-- **Every member has worked as its evaluations tell**, after any script. -/
theorem worked_after (level : Log.Level) (ts : List Token) (userNames : List Name) (c : Config)
    (script : List Event) :
    ∀ {k : Nat} {e : Expression}, (after level [.ofTokens ts userNames c] script)[k]? = some e →
      e.Worked level ts c (evaluatedBy level k [.ofTokens ts userNames c] script) := by
  induction script using List.reverseRecOn with
  | nil =>
    intro k e member
    obtain ⟨first, rfl⟩ := List.getElem?_eq_some_iff.mp member
    cases Nat.lt_one_iff.mp first
    exact .ofTokens userNames
  | append_singleton script ev ih =>
    intro k e member
    rw [after_concat] at member
    rw [evaluatedBy_concat]
    exact worked_happen ih evaluatedBy_unborn ev member

/-- **How much room a stack takes.** Whatever is done with an expression, its copies and theirs,
the capacity of each one's stack is the least of the capacity at first, its double, the double of
that and so on in which the greatest number of values had room that any of its own evaluations so
far came to. That is no more than there are numbers, names and functions of no arguments among the
tokens; so the capacity is the one at first or less than twice that many, however often an
evaluation was made and however it ended. -/
theorem capacity_member (level : Log.Level) (ts : List Token) (userNames : List Name) (c : Config)
    (script : List Event) {k : Nat} {e : Expression}
    (member : (after level [.ofTokens ts userNames c] script)[k]? = some e) :
    ∃ most,
      IsGreatest {d | d = 0 ∨
        ∃ x ∈ evaluatedBy level k [.ofTokens ts userNames c] script, x.Comes level d} most ∧
      (∃ j, e.stack.capacity = c.initialStackCapacity * 2 ^ j ∧
        IsLeast {j | most ≤ c.initialStackCapacity * 2 ^ j} j) ∧
      most ≤ leaves ts ∧
      (e.stack.capacity = c.initialStackCapacity ∨ e.stack.capacity < 2 * leaves ts) := by
  have worked := worked_after level ts userNames c script member
  have bound := worked.peaks_le
  refine ⟨_, Expression.isGreatest_peaks level _, worked.grown.capacity, bound, ?_⟩
  exact worked.grown.capacity_lt.imp_right fun less =>
    Nat.lt_of_lt_of_le less (Nat.mul_le_mul_left 2 bound)

/-- Three tokens that take no values, the last one a variable, in a stack of one cell. -/
def pile : Expression :=
  .ofTokens [.number 1.0, .operation Expression.seven, .name "x",
    .operation (.operator (.builtin .add)), .operation (.operator (.builtin .add))] []
    { initialStackCapacity := 1 }

/-- An evaluation that fails at the variable, a copy that is evaluated like it, and a sweep. -/
def piling : List Event :=
  [.on 0 .evaluate, .copy 0, .on 1 .evaluate, .on 0 (.sweep (.text "x") (.list [.real 2.0])),
    .on 0 .evaluate]

theorem capacity_member_piling :
    ∃ e copy, (after .silent [pile] piling)[0]? = some e ∧
      (after .silent [pile] piling)[1]? = some copy ∧
      leaves pile.tokens = 3 ∧ e.stack.capacity = 4 ∧ copy.stack.capacity = 2 ∧
      IsGreatest {d | d = 0 ∨ ∃ x ∈ evaluatedBy .silent 0 [pile] piling, x.Comes .silent d} 3 := by
  obtain ⟨most, greatest, -, -, -⟩ :=
    capacity_member .silent pile.tokens [] pile.config piling (k := 0) rfl
  have three : Expression.peaks .silent (evaluatedBy .silent 0 [pile] piling) = 3 := rfl
  have same := greatest.unique (Expression.isGreatest_peaks .silent _)
  refine ⟨_, _, rfl, rfl, rfl, rfl, rfl, ?_⟩
  rw [same] at greatest
  rw [← three]
  exact greatest

end Family
end ReversePolish

/-
The first cause. One rule says what a token does to the values before it and
which call it makes (`Passes`), and one what stops it: a variable that has no
value, an operation that finds too few values, an operation that fails
(`Stops`). A sequence goes through all its tokens or comes to one that stops it
(`passes_or_stops`).

An evaluation ends by these rules, with their error, the values and the calls
that they say, exactly if the pool has a buffer for every operation that it
comes to (`Expression.evaluate_endsByFirstCause`). What the stack and the
buffers held before makes no difference.
-/
import ReversePolish.Proofs.Depth
import ReversePolish.Proofs.Outcome

namespace ReversePolish

/-! ## What tokens do to values -/

/-- The call that an operation makes on values, the newest first: it takes as many as it is of, in
the order in which they came. -/
def Operation.callOn (op : Operation) (values : List Float) : Call :=
  ⟨op, (values.take op.arity).reverse⟩

section
variable (value? : String → Option Float)

/-- A token that nothing stops, with the values after it and the calls that it makes. -/
inductive Passes (values : List Float) : Token → List Float → List Call → Prop
  | number (x : Float) : Passes values (.number x) (x :: values) []
  | name (bound : value? n = some x) : Passes values (.name n) (x :: values) []
  | operation (enough : op.arity ≤ values.length)
      (applied : op.apply (op.callOn values).args = .ok x) :
      Passes values (.operation op) (x :: values.drop op.arity) [op.callOn values]

/-- A token that is stopped, with the error, the values that it leaves and the calls that it
makes. An operation that fails has taken its values. -/
inductive Stops (values : List Float) : Token → EvalError → List Float → List Call → Prop
  | unbound (missing : value? n = none) : Stops values (.name n) (.unbound n) values []
  | arity (short : values.length < op.arity) :
      Stops values (.operation op) (.arity op.kind op.name op.count values.length) values []
  | apply (enough : op.arity ≤ values.length)
      (failed : op.apply (op.callOn values).args = .error cause) :
      Stops values (.operation op) (.apply cause) (values.drop op.arity) [op.callOn values]

inductive PassesAll : List Float → List Token → List Float → List Call → Prop
  | nil (values : List Float) : PassesAll values [] values []
  | cons (first : Passes value? values t next made) (rest : PassesAll next ts last later) :
      PassesAll values (t :: ts) last (made ++ later)

end

variable {value? : String → Option Float}

theorem passes_or_stops_token (value? : String → Option Float) (values : List Float) (t : Token) :
    (∃ next made, Passes value? values t next made) ∨
      ∃ cause left made, Stops value? values t cause left made := by
  cases t with
  | number x => exact .inl ⟨_, _, .number x⟩
  | name n =>
    cases h : value? n with
    | some x => exact .inl ⟨_, _, .name h⟩
    | none => exact .inr ⟨_, _, _, .unbound h⟩
  | operation op =>
    by_cases enough : op.arity ≤ values.length
    · cases h : op.apply (op.callOn values).args with
      | ok x => exact .inl ⟨_, _, .operation enough h⟩
      | error cause => exact .inr ⟨_, _, _, .apply enough h⟩
    · exact .inr ⟨_, _, _, .arity (Nat.lt_of_not_le enough)⟩

/-- **All tokens pass, or there is a first one that is stopped.** -/
theorem passes_or_stops (value? : String → Option Float) (values : List Float) (ts : List Token) :
    (∃ last calls, PassesAll value? values ts last calls) ∨
      ∃ before t after mid calls cause left made, ts = before ++ t :: after ∧
        PassesAll value? values before mid calls ∧ Stops value? mid t cause left made := by
  induction ts generalizing values with
  | nil => exact .inl ⟨values, [], .nil values⟩
  | cons t ts ih =>
    rcases passes_or_stops_token value? values t with ⟨next, made, pass⟩ | ⟨cause, left, made, stop⟩
    · rcases ih next with ⟨last, later, rest⟩ |
        ⟨before, u, after, mid, later, cause, left, made', rfl, rest, stop⟩
      · exact .inl ⟨last, made ++ later, .cons pass rest⟩
      · exact .inr ⟨t :: before, u, after, mid, made ++ later, cause, left, made', rfl,
          .cons pass rest, stop⟩
    · exact .inr ⟨[], t, ts, values, [], cause, left, made, rfl, .nil values, stop⟩

theorem Passes.length {values next : List Float} {t : Token} {made : List Call}
    (h : Passes value? values t next made) :
    t.arity ≤ values.length ∧ next.length = values.length - t.arity + 1 := by
  cases h with
  | number x => exact ⟨Nat.zero_le _, rfl⟩
  | name bound => exact ⟨Nat.zero_le _, rfl⟩
  | operation enough applied =>
    refine ⟨enough, ?_⟩
    rw [List.length_cons, List.length_drop]
    rfl

theorem PassesAll.counts {values last : List Float} {ts : List Token} {calls : List Call}
    (h : PassesAll value? values ts last calls) :
    (last.length : Int) = values.length + netDepth ts ∧
      calls.map (·.op) = ts.filterMap Token.operation? := by
  induction h with
  | nil values => simp [netDepth]
  | cons first rest ih =>
    obtain ⟨enough, length⟩ := first.length
    refine ⟨by rw [ih.1, length, netDepth]; omega, ?_⟩
    rw [List.map_append, ih.2]
    cases first <;> rfl

/-! ## Reading by the rules -/

theorem Passes.step {values next : List Float} {t : Token} {made : List Call}
    (h : Passes value? values t next made)
    (index : ∀ a ∈ t.application? values, a.1.count.isIndex = true) :
    (valuation value?).step values t = .ok next ∧
      made = (t.application? values).toList.map Run.callOf := by
  cases h with
  | number x => exact ⟨rfl, rfl⟩
  | name bound =>
    simp only [Interpretation.step, valuation, bound]
    exact ⟨rfl, rfl⟩
  | operation enough applied =>
    have asked := Token.application?_operation enough
    rw [asked]
    rw [Interpretation.step_operation _ enough (index _ asked)]
    simp only [Operation.callOn] at applied
    simp only [valuation, applied]
    exact ⟨rfl, rfl⟩

theorem PassesAll.steps {values last : List Float} {ts : List Token} {calls : List Call}
    (h : PassesAll value? values ts last calls)
    (index : ∀ a ∈ (valuation value?).applications values ts, a.1.count.isIndex = true) :
    (valuation value?).steps values ts = .ok last ∧
      calls = ((valuation value?).applications values ts).map Run.callOf := by
  induction h with
  | nil values => exact ⟨rfl, rfl⟩
  | cons first rest ih =>
    simp only [Interpretation.applications, List.mem_append, Option.mem_toList] at index
    obtain ⟨step, rfl⟩ := first.step fun a ha => index a (.inl ha)
    rw [step] at index
    obtain ⟨steps, rfl⟩ := ih fun a ha => index a (.inr ha)
    simp only [Interpretation.steps, Interpretation.applications, step, List.map_append]
    exact ⟨steps, trivial⟩

/-! ## Running by the rules -/

namespace Run

theorem tokens_append (level : Log.Level) (value? : String → Option Float) (ts us : List Token)
    (r : Run) : r.tokens level value? (ts ++ us) = match r.tokens level value? ts with
      | (s, none) => s.tokens level value? us
      | (s, some e) => (s, some e) := by
  induction ts generalizing r with
  | nil => rfl
  | cons t ts ih =>
    simp only [List.cons_append, tokens]
    cases r.token level value? t with
    | mk s stop =>
    cases stop with
    | none => exact ih s
    | some e => rfl

theorem tokens_passesAll (level : Log.Level) {r : Run} {ts : List Token} {last : List Float}
    {calls : List Call} (h : PassesAll value? r.values ts last calls)
    (served : ∀ a ∈ (valuation value?).applications r.values ts,
      a.1.count.servedBy r.pool.size = true) :
    ∃ s, r.tokens level value? ts = (s, none) ∧ s.values = last ∧
      s.calls.toList = r.calls.toList ++ calls ∧ s.pool.size = r.pool.size := by
  obtain ⟨steps, rfl⟩ := h.steps fun a ha => Count.isIndex_of_servedBy (served a ha)
  obtain ⟨ends, after⟩ := tokens_agree level value? served
  rw [steps] at ends
  exact ⟨_, Prod.ext rfl ends.1, ends.2, after.calls, after.size⟩

/-- A token that is stopped leaves the values and has made the calls that the rule says, if it is
served. -/
theorem token_stops (level : Log.Level) {r : Run} {t : Token} {cause : EvalError}
    {left : List Float} {made : List Call} (h : Stops value? r.values t cause left made)
    (served : ∀ a ∈ t.application? r.values, a.1.count.servedBy r.pool.size = true) :
    ∃ s, r.token level value? t = (s, some cause) ∧ s.values = left ∧
      s.calls.toList = r.calls.toList ++ made := by
  cases h with
  | @unbound n missing =>
    obtain ⟨messages, failed⟩ := r.fail_eq level (.unbound n)
    exact ⟨{ r with messages := messages }, by simp only [token, missing, failed], rfl,
      (List.append_nil _).symm⟩
  | arity short =>
    obtain ⟨messages, failed⟩ := apply_short level short
    exact ⟨{ r with messages := messages }, failed, rfl, (List.append_nil _).symm⟩
  | @apply op cause enough failed =>
    obtain ⟨s, ready, h⟩ := apply_served level enough
      (served _ (Token.application?_operation enough))
    refine ⟨s, ?_, ready.values, by simp [ready.calls, Operation.callOn]⟩
    simp only [Operation.callOn] at failed
    simp only [token, h, failed, settle]

theorem values_finish_of_length {level : Log.Level} {r : Run} (h : r.values.length ≠ 1) :
    (r.finish level).1.values = r.values := by
  rw [length_values] at h
  unfold finish
  split
  next one _ => exact absurd one h
  next =>
    obtain ⟨messages, failed⟩ := r.fail_eq level (.malformed r.stack.count)
    simp only [failed]
    rfl

end Run

/-! ## Evaluations -/

namespace Expression

variable {e : Expression} {level : Log.Level}

/-- An evaluation ends so: with this outcome, with these values left on the stack, the newest first,
and after these calls. -/
structure EndsWith (e : Expression) (level : Log.Level) (outcome : Except EvalError Float)
    (left : List Float) (calls : List Call) : Prop where
  outcome : (e.evaluate level).2 = outcome
  values : (e.evaluate level).1.values = left
  depth : (e.step level .evaluate).1.stack.count = left.length
  calls : (e.evaluate level).1.calls.toList = calls

theorem EndsWith.of_evaluate {out : Run × Except EvalError Float} (h : e.evaluate level = out) :
    e.EndsWith level out.2 out.1.values out.1.calls.toList := by
  refine ⟨by rw [h], by rw [h], ?_, by rw [h]⟩
  rw [Run.length_values, step, runStep, h]
  rfl

/-- The evaluation ends by the first cause there is, and with a value if there is none and just one
value is left. -/
structure EndsByFirstCause (e : Expression) (level : Log.Level) : Prop where
  stopped : ∀ before t after values calls cause left made, e.tokens = before ++ t :: after →
    PassesAll e.bindings.value? [] before values calls →
    Stops e.bindings.value? values t cause left made →
    e.EndsWith level (.error cause) left (calls ++ made)
  value : ∀ x calls, PassesAll e.bindings.value? [] e.tokens [x] calls →
    e.EndsWith level (.ok x) [] calls
  malformed : ∀ values calls, PassesAll e.bindings.value? [] e.tokens values calls →
    values.length ≠ 1 → e.EndsWith level (.error (.malformed values.length)) values calls

theorem endsWith_of_stops (served : e.AllServed) {before after : List Token} {t : Token}
    {values left : List Float} {calls made : List Call} {cause : EvalError}
    (tokens : e.tokens = before ++ t :: after)
    (pass : PassesAll e.bindings.value? [] before values calls)
    (stop : Stops e.bindings.value? values t cause left made) :
    e.EndsWith level (.error cause) left (calls ++ made) := by
  rw [AllServed, tokens] at served
  have servedBefore : ∀ a ∈ e.reading.applications [] before,
      a.1.count.servedBy e.pool.size = true :=
    fun a ha => served a (Interpretation.mem_applications_append _ ha)
  obtain ⟨steps, -⟩ := pass.steps fun a ha => Count.isIndex_of_servedBy (servedBefore a ha)
  obtain ⟨s, run, rfl, made', size⟩ :=
    Run.tokens_passesAll level (r := .start e.stack e.pool) pass servedBefore
  obtain ⟨last, stopped, rfl, made''⟩ := Run.token_stops level stop fun a ha => by
    rw [size]
    exact served a (Interpretation.mem_applications_of_step after steps ha)
  have ended : e.evaluate level = (last, .error cause) := by
    rw [evaluate, ReversePolish.evaluate, tokens, Run.tokens_append]
    simp only [run, Run.tokens, stopped]
  rw [made'] at made''
  exact made'' ▸ .of_evaluate ended

theorem exists_finish_of_passesAll (level : Log.Level) (served : e.AllServed) {values : List Float}
    {calls : List Call} (pass : PassesAll e.bindings.value? [] e.tokens values calls) :
    ∃ r : Run, e.evaluate level = r.finish level ∧ r.values = values ∧ r.calls.toList = calls := by
  obtain ⟨r, run, hv, made, -⟩ :=
    Run.tokens_passesAll level (r := .start e.stack e.pool) pass served
  refine ⟨r, ?_, hv, made⟩
  rw [evaluate, ReversePolish.evaluate]
  simp only [run]

theorem endsByFirstCause_of_served (level : Log.Level) (served : e.AllServed) :
    e.EndsByFirstCause level := by
  refine ⟨fun _ _ _ _ _ _ _ _ => endsWith_of_stops served, fun x calls pass => ?_,
    fun values calls pass other => ?_⟩
  · obtain ⟨r, ended, hv, rfl⟩ := exists_finish_of_passesAll level served pass
    have ends := EndsWith.of_evaluate ended
    rwa [r.finish_eq, hv, Run.values_finish hv, Run.calls_finish] at ends
  · obtain ⟨r, ended, rfl, rfl⟩ := exists_finish_of_passesAll level served pass
    have ends := EndsWith.of_evaluate ended
    rwa [r.finish_eq, Interpretation.result_of_length other, Run.values_finish_of_length other,
      Run.calls_finish] at ends

theorem ne_refusal_of_stops {values left : List Float} {t : Token} {cause : EvalError}
    {made : List Call} (h : Stops value? values t cause left made) (size : Nat) (c : Count) :
    cause ≠ c.refusal size := by
  unfold Count.refusal
  cases h <;> split <;> exact nofun

theorem EndsByFirstCause.served (h : e.EndsByFirstCause level) : e.AllServed := by
  rcases passes_or_stops e.bindings.value? [] e.tokens with ⟨values, calls, pass⟩ |
    ⟨before, t, after, values, calls, cause, left, made, tokens, pass, stop⟩
  · by_cases one : values.length = 1
    · obtain ⟨x, rfl⟩ := List.length_eq_one_iff.mp one
      exact allServed_of_evaluate (h.value x calls pass).outcome
    · exact allServed_of_inSequence (h.malformed values calls pass one).outcome rfl
  · have stopped := (h.stopped before t after values calls cause left made tokens pass stop).outcome
    refine allServed_of_ne_refusal level fun c refused => ?_
    rw [stopped, Except.error.injEq] at refused
    exact ne_refusal_of_stops stop _ c refused

/-- **The first cause wins.** Whatever the bindings, the stack and the buffers, the evaluation of
any sequence ends by its first cause, a variable that has no value, an operation that finds too few
values or one that fails, or else by the number of values that are left, exactly if the pool has a
buffer for every operation that it comes to. There is such a cause or all tokens pass; the numbers
of values are those that `netDepth` tells, and up to the cause every operation is called once, in
order. The bindings stay as they are. -/
theorem evaluate_endsByFirstCause (e : Expression) (level : Log.Level) :
    (e.EndsByFirstCause level ↔ e.AllServed) ∧
      (e.step level .evaluate).1.bindings = e.bindings ∧
      ((∃ values calls, PassesAll e.bindings.value? [] e.tokens values calls) ∨
        ∃ before t after values calls cause left made, e.tokens = before ++ t :: after ∧
          PassesAll e.bindings.value? [] before values calls ∧
          Stops e.bindings.value? values t cause left made) ∧
      ∀ before values calls, PassesAll e.bindings.value? [] before values calls →
        (values.length : Int) = netDepth before ∧
          calls.map (·.op) = before.filterMap Token.operation? := by
  refine ⟨⟨EndsByFirstCause.served, endsByFirstCause_of_served level⟩, rfl,
    passes_or_stops e.bindings.value? [] e.tokens, fun _ _ _ pass => ?_⟩
  have counts := pass.counts
  simpa using counts

/-- A variable that has no value stands before an operation that finds too few values. -/
def stalled : Expression :=
  ofTokens [.number 1.0, .operation seven, .name "nowhere", .operation blend,
    .operation (.operator (.builtin .add))] [] {}

theorem evaluate_endsByFirstCause_stalled :
    stalled.AllServed ∧
      stalled.EndsWith .verbose (.error (.unbound "nowhere")) [7.0, 1.0] [⟨seven, []⟩] := by
  have served : stalled.AllServed := by
    refine allServed_of_operations fun op hop => ?_
    have hop : op = seven ∨ op = blend ∨ op = .operator (.builtin .add) := by
      simpa [stalled, ofTokens] using hop
    rcases hop with rfl | rfl | rfl <;> rfl
  have pass : PassesAll stalled.bindings.value? [] [.number 1.0, .operation seven] [7.0, 1.0]
      [⟨seven, []⟩] := .cons (.number 1.0) (.cons (.operation (by decide) rfl) (.nil _))
  have ends := (evaluate_endsByFirstCause stalled .verbose).1.mpr served
  exact ⟨served, ends.stopped _ (.name "nowhere") _ _ _ _ _ _ rfl pass (.unbound rfl)⟩

/-- All tokens pass and one value is left; but where no buffers are pooled none is made for a count
that was given as a truth value, and that stops the evaluation. -/
theorem not_endsByFirstCause_doubt :
    let e := unpooled [.number 1.0, .operation doubt]
    PassesAll e.bindings.value? [] e.tokens [0.0 + 1.0] [⟨doubt, [1.0]⟩] ∧
      (e.evaluate .silent).2 = .error (.notLength (.truth true)) ∧
      ¬ e.EndsByFirstCause .silent := by
  intro e
  have pass : PassesAll e.bindings.value? [] e.tokens [0.0 + 1.0] [⟨doubt, [1.0]⟩] :=
    .cons (.number 1.0) (.cons (.operation (by decide) rfl) (.nil _))
  have stopped : (e.evaluate .silent).2 = .error (.notLength (.truth true)) := rfl
  refine ⟨pass, stopped, fun ends => ?_⟩
  have found := (ends.value _ _ pass).outcome
  rw [stopped] at found
  cases found

end Expression
end ReversePolish

/-
How an evaluation ends. It ends as the reading of its tokens by cells does,
exactly if the pool has a buffer for every operation that it comes to
(`evaluate_eq_fold_iff`); with that, an evaluation in which no call fails ends
like the rendering and the symbolic term of the same tokens.

A buffer is missing for a count that is no plain whole number: a number with a
point always, and a truth value where the pool is too small for it.

A plain reading, without buffers, may end otherwise for a second reason: a
caller's kernel may tell plain numbers from cells. Where none that is come to
does, `evaluate_reads` has the plain reading too.
-/
import ReversePolish.Proofs.Agreement
import ReversePolish.Proofs.Forms
import ReversePolish.Proofs.Reachable

namespace ReversePolish

/-- Does the cause lie in the sequence and its bindings? -/
def EvalError.inSequence : EvalError → Bool
  | .unbound _ => true
  | .arity .. => true
  | .malformed _ => true
  | _ => false

theorem Count.refusal_cases (size : Nat) (c : Count) :
    c.refusal size = .notIndex c ∨ c.refusal size = .notLength c := by
  unfold refusal
  split
  · exact .inl rfl
  · exact .inr rfl

theorem Count.inSequence_refusal (size : Nat) (c : Count) :
    (c.refusal size).inSequence = false := by
  rcases c.refusal_cases size with h | h <;> rw [h] <;> rfl

/-! ## Errors of a reading -/

theorem valuation_name_error {value? : String → Option Float} {n : String} {e : EvalError}
    (h : (valuation value?).name n = .error e) : value? n = none ∧ e = .unbound n := by
  simp only [valuation] at h
  cases hv : value? n with
  | some x => rw [hv] at h; cases h
  | none => rw [hv] at h; cases h; exact ⟨rfl, rfl⟩

theorem valuation_name_ok {value? : String → Option Float} {n : String} {x : Float}
    (h : (valuation value?).name n = .ok x) : value? n = some x := by
  simp only [valuation] at h
  cases hv : value? n with
  | some y => rw [hv] at h; cases h; rfl
  | none => rw [hv] at h; cases h

theorem valuation_apply_error {value? : String → Option Float} {op : Operation}
    {args : List Float} {e : EvalError} (h : (valuation value?).apply op args = .error e) :
    ∃ c, op.apply args = .error c ∧ e = .apply c := by
  simp only [valuation] at h
  cases ha : op.apply args with
  | ok x => rw [ha] at h; cases h
  | error c => rw [ha] at h; cases h; exact ⟨c, rfl, rfl⟩

/-- Why a computing reading fails: the cause lies in the sequence, or with an application that the
reading comes to. -/
theorem fold_error {value? : String → Option Float} {ts : List Token} {e : EvalError}
    (h : (valuation value?).fold ts = .error e) :
    e.inSequence = true ∨ ∃ a ∈ (valuation value?).applications [] ts,
      a.1.count.isIndex = false ∧ e = .notSlice ∨ ∃ c, a.1.apply a.2 = .error c ∧ e = .apply c := by
  rcases Interpretation.steps_of_fold_error h with stopped | ⟨remaining, rfl⟩
  · rcases Interpretation.steps_error_cases stopped with ⟨n, -, hn⟩ |
      ⟨_, op, _, mid, -, -, -, rfl⟩ | ⟨a, ha, cause⟩
    · exact .inl ((valuation_name_error hn).2 ▸ rfl)
    · exact .inl rfl
    · exact .inr ⟨a, ha, cause.imp_right valuation_apply_error⟩
  · exact .inl rfl

/-- A reading ends with the refusal of a count only if it stands for a name or an application. -/
theorem Interpretation.fold_ne_refusal {α : Type u} {I : Interpretation α} {size : Nat} {c : Count}
    (name : ∀ n, I.name n ≠ .error (c.refusal size))
    (apply : ∀ op args, I.apply op args ≠ .error (c.refusal size)) (ts : List Token) :
    I.fold ts ≠ .error (c.refusal size) := by
  intro h
  rcases steps_of_fold_error h with stopped | ⟨_, malformed⟩
  · rcases steps_error_cases stopped with ⟨n, -, hn⟩ | ⟨_, _, _, _, -, -, -, short⟩ |
      ⟨a, -, ⟨-, slice⟩ | failed⟩
    · exact name n hn
    · rcases c.refusal_cases size with refused | refused <;> rw [refused] at short <;> cases short
    · rcases c.refusal_cases size with refused | refused <;> rw [refused] at slice <;> cases slice
    · exact apply _ _ failed
  · rcases c.refusal_cases size with refused | refused <;> rw [refused] at malformed <;>
      cases malformed

section
variable (value? : String → Option Float) (ts : List Token) (size : Nat) (c : Count)

theorem fold_ne_refusal : (valuation value?).fold ts ≠ .error (c.refusal size) := by
  refine Interpretation.fold_ne_refusal (fun n h => ?_) (fun op args h => ?_) ts
  · rcases c.refusal_cases size with refused | refused <;>
      cases refused.symm.trans (valuation_name_error h).2
  · obtain ⟨_, -, failed⟩ := valuation_apply_error h
    rcases c.refusal_cases size with refused | refused <;> cases refused.symm.trans failed

theorem plain_fold_ne_refusal :
    (Scalar.valuation value?).fold ts ≠ .error (c.refusal size) := by
  refine Interpretation.fold_ne_refusal (fun n h => ?_) (fun op args h => ?_) ts
  · simp only [Scalar.valuation] at h
    cases hv : value? n with
    | some x => rw [hv] at h; cases h
    | none =>
      rw [hv] at h
      rcases c.refusal_cases size with refused | refused <;> rw [refused] at h <;> cases h
  · simp only [Scalar.valuation] at h
    cases ha : op.applyTo args with
    | ok x => rw [ha] at h; cases h
    | error e =>
      rw [ha] at h
      rcases c.refusal_cases size with refused | refused <;> rw [refused] at h <;> cases h

end

/-! ## Expressions -/

namespace Expression

def reading (e : Expression) : Interpretation Float := valuation e.bindings.value?

/-- Every variable of the sequence has a value. -/
def AllBound (e : Expression) : Prop :=
  ∀ n, .name n ∈ e.tokens → ∃ x, e.bindings.value? n = some x

/-- No operation of the sequence fails on as many arguments as it takes. -/
def NoneFails (e : Expression) : Prop :=
  ∀ op, .operation op ∈ e.tokens → ∀ args, args.length = op.arity → ∃ x, op.apply args = .ok x

/-- No call of an evaluation fails. -/
def CallsSucceed (e : Expression) (level : Log.Level) : Prop :=
  ∀ c ∈ (e.evaluate level).1.calls.toList, ∃ x, c.op.apply c.args = .ok x

/-- What the plain reading comes to is applied alike in both forms. -/
def AllAlike (e : Expression) : Prop :=
  ∀ a ∈ (Scalar.valuation e.bindings.value?).applications [] e.tokens, a.1.TreatsAlike a.2

/-- The pool has a buffer for every operation that the reading comes to with enough values. -/
def AllServed (e : Expression) : Prop :=
  ∀ a ∈ e.reading.applications [] e.tokens, a.1.count.servedBy e.pool.size = true

theorem AllBound.reading_name {e : Expression} (bound : e.AllBound) (n : String)
    (hn : .name n ∈ e.tokens) : ∃ x, e.reading.name n = .ok x := by
  obtain ⟨x, hx⟩ := bound n hn
  exact ⟨x, by simp [reading, valuation, hx]⟩

theorem reading_apply (e : Expression) {op : Operation} {args : List Float}
    (h : ∃ x, op.apply args = .ok x) : ∃ x, e.reading.apply op args = .ok x := by
  obtain ⟨x, hx⟩ := h
  exact ⟨x, by simp [reading, valuation, hx]⟩

theorem reading_totalOn {e : Expression} (bound : e.AllBound) (safe : e.NoneFails) :
    e.reading.TotalOn e.tokens :=
  ⟨bound.reading_name, fun op hop args hargs => e.reading_apply (safe op hop args hargs)⟩

theorem reading_meaningfulFrom {e : Expression} (bound : e.AllBound)
    (met : ∀ a ∈ e.reading.applications [] e.tokens, ∃ x, a.1.apply a.2 = .ok x) :
    e.reading.MeaningfulFrom [] e.tokens :=
  ⟨bound.reading_name, fun a ha => e.reading_apply (met a ha)⟩

theorem allServed_of_operations {e : Expression}
    (h : ∀ op, .operation op ∈ e.tokens → op.count.servedBy e.pool.size = true) : e.AllServed :=
  fun a ha => h a.1 (Interpretation.mem_applications ha).1

theorem evaluate_of_not_served {e : Expression} (level : Log.Level) (h : ¬ e.AllServed) :
    ∃ op, .operation op ∈ e.tokens ∧ op.count.servedBy e.pool.size = false ∧
      (e.evaluate level).2 = .error (op.count.refusal e.pool.size) := by
  simp only [AllServed, Classical.not_forall, Bool.not_eq_true] at h
  obtain ⟨a, ha, hn⟩ := h
  exact evaluate_refused level _ e.stack e.pool ⟨a, ha, hn⟩

theorem allServed_of_ne_refusal {e : Expression} (level : Log.Level)
    (h : ∀ c : Count, (e.evaluate level).2 ≠ .error (c.refusal e.pool.size)) : e.AllServed := by
  refine Classical.byContradiction fun hn => ?_
  obtain ⟨op, -, -, refused⟩ := evaluate_of_not_served level hn
  exact h op.count refused

theorem allServed_of_evaluate {e : Expression} {level : Log.Level} {x : Float}
    (h : (e.evaluate level).2 = .ok x) : e.AllServed :=
  allServed_of_ne_refusal level fun c refused => by rw [h] at refused; cases refused

theorem allServed_of_inSequence {e : Expression} {level : Log.Level} {cause : EvalError}
    (h : (e.evaluate level).2 = .error cause) (inSequence : cause.inSequence = true) :
    e.AllServed := by
  refine allServed_of_ne_refusal level fun c refused => ?_
  rw [h] at refused
  cases refused
  rw [Count.inSequence_refusal] at inSequence
  cases inSequence

/-- Evaluation and reading end alike exactly if every operation is served. -/
theorem evaluate_eq_fold_iff (e : Expression) (level : Log.Level) :
    (e.evaluate level).2 = e.reading.fold e.tokens ↔ e.AllServed := by
  constructor
  · intro h
    refine allServed_of_ne_refusal level fun c refused => ?_
    exact fold_ne_refusal _ _ _ c (h.symm.trans refused)
  · intro served
    exact (evaluate_agrees level e.bindings.value? e.stack e.pool served).1

theorem steps_of_evaluate {e : Expression} {level : Log.Level} {x : Float}
    (h : (e.evaluate level).2 = .ok x) : e.reading.steps [] e.tokens = .ok [x] := by
  have hf := (e.evaluate_eq_fold_iff level).mpr (allServed_of_evaluate h)
  rw [h] at hf
  exact Interpretation.steps_of_fold hf.symm

theorem CallsSucceed.met {e : Expression} {level : Log.Level} (succeed : e.CallsSucceed level)
    (served : e.AllServed) {a : Operation × List Float}
    (ha : a ∈ e.reading.applications [] e.tokens) : ∃ x, a.1.apply a.2 = .ok x := by
  have calls := (evaluate_agrees level e.bindings.value? e.stack e.pool served).2
  refine succeed (Run.callOf a) ?_
  rw [evaluate, calls]
  exact List.mem_map_of_mem ha

theorem NoneFails.met {e : Expression} (safe : e.NoneFails) {a : Operation × List Float}
    (ha : a ∈ e.reading.applications [] e.tokens) : ∃ x, a.1.apply a.2 = .ok x := by
  obtain ⟨hop, length⟩ := Interpretation.mem_applications ha
  exact safe a.1 hop a.2 length

/-- Where every operation is served and none that is come to fails, only the sequence and its
bindings can be at fault. -/
theorem evaluate_error {e : Expression} {level : Log.Level} {cause : EvalError}
    (served : e.AllServed)
    (met : ∀ a ∈ e.reading.applications [] e.tokens, ∃ x, a.1.apply a.2 = .ok x)
    (h : (e.evaluate level).2 = .error cause) : cause.inSequence = true := by
  rw [(e.evaluate_eq_fold_iff level).mpr served] at h
  rcases fold_error h with hin | ⟨a, ha, ⟨hi, -⟩ | ⟨c, hc, -⟩⟩
  · exact hin
  · rw [Count.isIndex_of_servedBy (served a ha)] at hi; cases hi
  · obtain ⟨x, hx⟩ := met a ha
    rw [hx] at hc; cases hc

/-- The text and the term of an expression are readings in which everything has a meaning. -/
theorem render_totalOn (ts : List Token) : Rendering.interpretation.TotalOn ts :=
  ⟨fun n _ => ⟨n, rfl⟩, fun op _ args _ => ⟨Rendering.application op args, rfl⟩⟩

theorem symbolic_totalOn (ts : List Token) : Symbolic.interpretation.TotalOn ts :=
  ⟨fun n _ => ⟨.symbol n, rfl⟩, fun op _ args _ => ⟨Symbolic.application op args, rfl⟩⟩

/-- The value, the text and the term are all there, or one cause in the sequence keeps them all
from being found. -/
def EndsTogether (e : Expression) (level : Log.Level) : Prop :=
  (∃ x text term, (e.evaluate level).2 = .ok x ∧ e.render.2 = .ok text ∧ e.symbolic = .ok term) ∨
    ∃ cause, cause.inSequence = true ∧ (e.evaluate level).2 = .error cause ∧
      e.render.2 = .error cause ∧ e.symbolic = .error cause

theorem endsTogether_of_served {e : Expression} {level : Log.Level} (reached : e.Reachable)
    (bound : e.AllBound) (succeed : e.CallsSucceed level) (served : e.AllServed) :
    e.EndsTogether level := by
  have hv := (e.evaluate_eq_fold_iff level).mpr served
  have meaningful := reading_meaningfulFrom bound fun a ha => succeed.met served ha
  rw [EndsTogether, reached.render]
  rcases Interpretation.fold_alike meaningful ((render_totalOn e.tokens).meaningfulFrom []) with
    ⟨x, text, hx, ht⟩ | ⟨cause, hx, ht⟩
  · rcases Interpretation.fold_alike meaningful ((symbolic_totalOn e.tokens).meaningfulFrom [])
      with ⟨y, term, hy, ha⟩ | ⟨cause, hy, -⟩
    · exact .inl ⟨x, text, term, hv.trans hx, ht, ha⟩
    · rw [hx] at hy; cases hy
  · rcases Interpretation.fold_alike meaningful ((symbolic_totalOn e.tokens).meaningfulFrom [])
      with ⟨y, term, hy, -⟩ | ⟨cause', hy, ha⟩
    · rw [hx] at hy; cases hy
    · rw [hx] at hy
      cases hy
      refine .inr ⟨cause, ?_, hv.trans hx, ht, ha⟩
      exact evaluate_error served (fun a ha => succeed.met served ha) (hv.trans hx)

theorem served_of_endsTogether {e : Expression} {level : Log.Level} (h : e.EndsTogether level) :
    e.AllServed := by
  rcases h with ⟨x, text, term, hx, -, -⟩ | ⟨cause, inSequence, hx, -, -⟩
  · exact allServed_of_evaluate hx
  · exact allServed_of_inSequence hx inSequence

theorem served_of_eq_plain {e : Expression} {level : Log.Level}
    (h : (e.evaluate level).2 =
      ((Scalar.valuation e.bindings.value?).fold e.tokens).map Scalar.value) : e.AllServed := by
  refine allServed_of_ne_refusal level fun c refused => ?_
  rw [refused] at h
  cases hf : (Scalar.valuation e.bindings.value?).fold e.tokens with
  | ok x => rw [hf] at h; cases h
  | error cause =>
    rw [hf] at h
    cases h
    exact plain_fold_ne_refusal _ _ _ c hf

/-- **Evaluation is the plain reading of the tokens**, by number, bound value and application, in
every state of the stack and the pool: the same value or the same error. It is so only if the pool
has a buffer for every operation that is come to, and exactly then if each of these treats plain
numbers as it treats cells; with the reading by cells it is so exactly then in any case. And where
all variables are bound and no call fails, exactly then are the value, the text and the symbolic
term of a reached expression all found, or all missing for one cause in the sequence. -/
theorem evaluate_reads (e : Expression) (level : Log.Level) :
    ((e.evaluate level).2 =
        ((Scalar.valuation e.bindings.value?).fold e.tokens).map Scalar.value → e.AllServed) ∧
      (e.AllAlike → ((e.evaluate level).2 =
        ((Scalar.valuation e.bindings.value?).fold e.tokens).map Scalar.value ↔ e.AllServed)) ∧
      ((e.evaluate level).2 = (valuation e.bindings.value?).fold e.tokens ↔ e.AllServed) ∧
      (e.Reachable → e.AllBound → e.CallsSucceed level →
        (e.EndsTogether level ↔ e.AllServed)) := by
  refine ⟨served_of_eq_plain, fun alike => ⟨served_of_eq_plain, fun served => ?_⟩,
    e.evaluate_eq_fold_iff level, fun reached bound succeed => ?_⟩
  · calc (e.evaluate level).2 = (valuation e.bindings.value?).fold e.tokens :=
          (e.evaluate_eq_fold_iff level).mpr served
      _ = _ := valuation_fold_eq alike
  · exact ⟨served_of_endsTogether, endsTogether_of_served reached bound succeed⟩

/-! ## An expression that is served, and one that is not -/

/-- A function of three arguments. -/
def blend : Operation := .function (.defined ⟨0, "blend", .whole 3, some Kernel.weightedSum⟩)

def seven : Operation := .function (.defined ⟨1, "seven", .whole 0, some (Kernel.constant 7.0)⟩)

/-- A function of one argument whose count was given as a truth value. -/
def doubt : Operation := .function (.defined ⟨2, "doubt", .truth true, some Kernel.sum⟩)

def blended : List Token :=
  [.name "pi", .number 2.0, .name "e", .operation blend, .operation seven,
    .operation (.operator (.builtin .add))]

/-- The pool has no buffer for three arguments, so one is made. -/
def sample : Expression := ofTokens blended [] { scratchPoolSize := 2 }

def unpooled (tokens : List Token) : Expression := ofTokens tokens [] { scratchPoolSize := 0 }

theorem allBound_sample : sample.AllBound := by
  intro n hn
  simp only [sample, ofTokens, blended, List.mem_cons, Token.name.injEq, reduceCtorEq, false_or,
    List.not_mem_nil, or_false] at hn
  rcases hn with rfl | rfl
  · exact ⟨Elementary.pi, rfl⟩
  · exact ⟨Elementary.e, rfl⟩

theorem operation_mem_blended {op : Operation} (h : .operation op ∈ blended) :
    op = blend ∨ op = seven ∨ op = .operator (.builtin .add) := by
  simpa [blended] using h

theorem add_ok {args : List Float} (h : args.length = 2) :
    ∃ x, (Operation.operator (.builtin .add)).apply args = .ok x := by
  rcases args with _ | ⟨x, _ | ⟨y, _ | ⟨z, rest⟩⟩⟩
  · cases h
  · cases h
  · exact ⟨x + y, rfl⟩
  · cases h

theorem noneFails_sample : sample.NoneFails := by
  intro op hop args hargs
  rcases operation_mem_blended hop with rfl | rfl | rfl
  · exact ⟨_, rfl⟩
  · exact ⟨_, rfl⟩
  · exact add_ok hargs

theorem served_sample {op : Operation} (hop : .operation op ∈ blended) :
    op.count.servedBy sample.pool.size = true := by
  rcases operation_mem_blended hop with rfl | rfl | rfl <;> rfl

theorem allAlike_sample : sample.AllAlike := by
  intro a ha
  refine Operation.Blind.treatsAlike ?_ a.2
  rcases operation_mem_blended (Interpretation.mem_applications ha).1 with h | h | h <;> rw [h]
  · rintro k ⟨⟩
    exact Kernel.blind_weightedSum
  · rintro k ⟨⟩
    exact Kernel.blind_constant 7.0
  · exact Operation.blind_of_builtin rfl

theorem callsSucceed_sample : sample.CallsSucceed .silent := by
  have served : sample.AllServed := allServed_of_operations fun _ => served_sample
  have calls := (evaluate_agrees .silent sample.bindings.value? sample.stack sample.pool served).2
  intro c hc
  rw [evaluate, calls, List.mem_map] at hc
  obtain ⟨a, ha, rfl⟩ := hc
  exact noneFails_sample.met ha

theorem evaluate_reads_sample :
    (sample.evaluate .silent).2 =
        ((Scalar.valuation sample.bindings.value?).fold sample.tokens).map Scalar.value ∧
      (sample.evaluate .silent).2 = (valuation sample.bindings.value?).fold sample.tokens ∧
      sample.EndsTogether .silent := by
  have served : sample.AllServed := allServed_of_operations fun _ => served_sample
  obtain ⟨-, plain, cells, together⟩ := evaluate_reads sample .silent
  exact ⟨(plain allAlike_sample).mpr served, cells.mpr served,
    (together (.made ..) allBound_sample callsSucceed_sample).mpr served⟩

/-- Where no buffers are pooled, none is made for a count that was given as a truth value: the
evaluation stops, though the plain reading of the same tokens gives a value, and though nothing
that is named or called stands in the way. -/
theorem evaluate_doubt :
    (unpooled [.number 1.0, .operation doubt]).Reachable ∧
      (unpooled [.number 1.0, .operation doubt]).AllBound ∧
      (unpooled [.number 1.0, .operation doubt]).CallsSucceed .silent ∧
      ((unpooled [.number 1.0, .operation doubt]).evaluate .silent).2 =
        .error (.notLength (.truth true)) ∧
      (Scalar.valuation (unpooled [.number 1.0, .operation doubt]).bindings.value?).fold
        [.number 1.0, .operation doubt] = .ok ⟨0.0 + 1.0, .plain⟩ ∧
      ¬ (unpooled [.number 1.0, .operation doubt]).EndsTogether .silent := by
  have refused : ((unpooled [.number 1.0, .operation doubt]).evaluate .silent).2 =
      .error (.notLength (.truth true)) := rfl
  refine ⟨.made .., ?_, ?_, refused, rfl, ?_⟩
  · intro n hn
    simp [unpooled, ofTokens] at hn
  · intro c hc
    cases hc
  · rintro (⟨x, _, _, hx, -⟩ | ⟨cause, inSequence, hx, -⟩)
    · cases refused.symm.trans hx
    · cases refused.symm.trans hx
      cases inSequence

/-- Division as plain numbers have it: it fails on a divisor of nought, unless one of the numbers
is a cell. -/
def division : Kernel
  | [x, y] =>
    if x.form.join y.form = .plain ∧ y.value == 0.0 then
      .error (.raised "float division by zero")
    else .ok (x.combine (· / ·) y)
  | xs => .error (.miscounted (.named "<lambda>" ["a", "b"]) xs.length)

def ratio : Operation := .function (.defined ⟨3, "ratio", .whole 2, some division⟩)

/-- Such a kernel is the second reason to end otherwise, though it is served. -/
theorem evaluate_ratio :
    (unpooled [.number 1.0, .number 0.0, .operation ratio]).AllServed ∧
      ((unpooled [.number 1.0, .number 0.0, .operation ratio]).evaluate .silent).2 =
        .ok (1.0 / 0.0) ∧
      (Scalar.valuation (unpooled []).bindings.value?).fold
        [.number 1.0, .number 0.0, .operation ratio] =
          .error (.apply (.raised "float division by zero")) := by
  refine ⟨allServed_of_operations ?_, rfl, rfl⟩
  intro op hop
  obtain rfl : op = ratio := by simpa [unpooled, ofTokens] using hop
  rfl

end Expression
end ReversePolish

/-
A run with its stack of cells and its buffers, and the plain reading of the
same tokens, do the same. Step by step the stack holds the values of the
reading, and the calls are its applications (`token_agrees`); so a run ends as
the reading ends, whatever the stack and the buffers held before.

There is one difference. A run asks for a buffer before it applies an
operation, and for a count that is no plain whole number it may be refused
one; then it stops there (`tokens_refused`), which a reading never does.
-/
import ReversePolish.Proofs.Application
import ReversePolish.Proofs.Reading

namespace ReversePolish
namespace Run

def callOf (a : Operation × List Float) : Call := ⟨a.1, a.2⟩

/-- The run has ended as a reading ends: with its values, or with its error. -/
def EndsAs (out : Run × Option EvalError) : Except EvalError (List Float) → Prop
  | .ok values => out.2 = none ∧ out.1.values = values
  | .error e => out.2 = some e

structure After (r : Run) (made : List (Operation × List Float)) (s : Run) : Prop where
  calls : s.calls.toList = r.calls.toList ++ made.map callOf
  size : s.pool.size = r.pool.size

theorem After.trans {r s u : Run} {made later : List (Operation × List Float)}
    (h : After r made s) (h' : After s later u) : After r (made ++ later) u :=
  ⟨by rw [h'.calls, h.calls, List.map_append, List.append_assoc], h'.size.trans h.size⟩

theorem settle_endsAs {s : Run} (values : List Float) (hv : s.values = values)
    (x : Except ApplyError Float) :
    EndsAs (s.settle x) ((match x with
      | .ok x => Except.ok x
      | .error e => .error (EvalError.apply e)).map (· :: values)) := by
  cases x with
  | ok x => exact ⟨rfl, by rw [settle, values_push, hv]⟩
  | error e => rfl

/-- **One token, run and read.** If the application that it asks for is served, the run goes on as
the reading does. -/
theorem token_agrees (level : Log.Level) (value? : String → Option Float) {r : Run} {t : Token}
    (served : ∀ a ∈ t.application? r.values, a.1.count.servedBy r.pool.size = true) :
    EndsAs (r.token level value? t) ((valuation value?).step r.values t) ∧
      After r (t.application? r.values).toList (r.token level value? t).1 := by
  cases t with
  | number x => exact ⟨⟨rfl, values_push r x⟩, by simp [token, push, Token.application?], rfl⟩
  | name n =>
    simp only [token, Interpretation.step, valuation]
    cases value? n with
    | some x => exact ⟨⟨rfl, values_push r x⟩, by simp [push, Token.application?], rfl⟩
    | none =>
      obtain ⟨messages, h⟩ := r.fail_eq level (.unbound n)
      rw [h]
      exact ⟨rfl, by simp [Token.application?], rfl⟩
  | operation op =>
    by_cases enough : op.arity ≤ r.values.length
    · have asked := Token.application?_operation enough
      have hserved : op.count.servedBy r.pool.size = true := served (op, _) (by rw [asked]; rfl)
      obtain ⟨s, ready, h⟩ := apply_served level enough hserved
      rw [asked, Interpretation.step_operation _ enough (Count.isIndex_of_servedBy hserved)]
      simp only [token, h]
      refine ⟨settle_endsAs _ ready.values _, ?_⟩
      have after : After r [(op, (r.values.take op.arity).reverse)] s :=
        ⟨by simp [ready.calls, callOf], ready.size⟩
      cases op.apply (r.values.take op.arity).reverse with
      | ok x => exact ⟨after.calls, after.size⟩
      | error e => exact after
    · have short := Nat.lt_of_not_le enough
      obtain ⟨messages, h⟩ := apply_short level short
      rw [Interpretation.step_short _ short, Token.application?_short short]
      simp only [token, h]
      exact ⟨rfl, by simp, rfl⟩

/-- **A whole sequence, run and read.** If every application that the reading comes to is served,
the run ends as the reading does, and its calls are those applications. -/
theorem tokens_agree (level : Log.Level) (value? : String → Option Float) {ts : List Token}
    {r : Run} (served : ∀ a ∈ (valuation value?).applications r.values ts,
      a.1.count.servedBy r.pool.size = true) :
    EndsAs (r.tokens level value? ts) ((valuation value?).steps r.values ts) ∧
      After r ((valuation value?).applications r.values ts) (r.tokens level value? ts).1 := by
  induction ts generalizing r with
  | nil => exact ⟨⟨rfl, rfl⟩, by simp [tokens, Interpretation.applications], rfl⟩
  | cons t ts ih =>
    simp only [Interpretation.applications, List.mem_append, Option.mem_toList] at served
    obtain ⟨ends, after⟩ := token_agrees level value? (t := t) fun a ha => served a (.inl ha)
    simp only [tokens, Interpretation.steps, Interpretation.applications]
    cases ht : r.token level value? t with
    | mk s stop =>
    rw [ht] at ends after
    cases hs : (valuation value?).step r.values t with
    | error e =>
      rw [hs] at ends
      obtain rfl : stop = some e := ends
      exact ⟨rfl, by simpa using after.calls, after.size⟩
    | ok values =>
      rw [hs] at ends
      obtain ⟨rfl, rfl⟩ : stop = none ∧ s.values = values := ends
      have later := ih (r := s) fun a ha => by
        rw [after.size]
        exact served a (.inr (by rw [hs]; exact ha))
      exact ⟨later.1, after.trans later.2⟩

/-- **A refused application stops the run**, at the first one. -/
theorem tokens_refused (level : Log.Level) (value? : String → Option Float) {ts : List Token}
    {r : Run} (refused : ∃ a ∈ (valuation value?).applications r.values ts,
      a.1.count.servedBy r.pool.size = false) :
    ∃ op, .operation op ∈ ts ∧ op.count.servedBy r.pool.size = false ∧
      (r.tokens level value? ts).2 = some (op.count.refusal r.pool.size) := by
  induction ts generalizing r with
  | nil => simp [Interpretation.applications] at refused
  | cons t ts ih =>
    by_cases hserved : ∀ a ∈ t.application? r.values, a.1.count.servedBy r.pool.size = true
    · obtain ⟨ends, after⟩ := token_agrees level value? hserved
      obtain ⟨a, ha, hr⟩ := refused
      simp only [Interpretation.applications, List.mem_append, Option.mem_toList] at ha
      rcases ha with ha | ha
      · rw [hserved a ha] at hr; cases hr
      cases hs : (valuation value?).step r.values t with
      | error e => rw [hs] at ha; simp at ha
      | ok values =>
        rw [hs] at ends ha
        obtain ⟨op, hop, hn, he⟩ := ih (r := (r.token level value? t).1)
          ⟨a, by rw [ends.2]; exact ha, by rw [after.size]; exact hr⟩
        rw [after.size] at hn he
        refine ⟨op, List.mem_cons_of_mem t hop, hn, ?_⟩
        rw [tokens]
        split
        next heq => rw [heq] at he; exact he
        next e heq => rw [heq] at ends; cases ends.1
    · -- The head asks for an application that is not served, so it is an operation.
      cases t with
      | number x => simp [Token.application?] at hserved
      | name n => simp [Token.application?] at hserved
      | operation op =>
        by_cases enough : op.arity ≤ r.values.length
        · have hn : op.count.servedBy r.pool.size = false := by
            simpa [Token.application?_operation enough] using hserved
          obtain ⟨messages, h⟩ := apply_refused level enough hn
          exact ⟨op, List.mem_cons_self .., hn, by simp [tokens, token, h]⟩
        · rw [Token.application?_short (Nat.lt_of_not_le enough)] at hserved
          simp at hserved

/-! ## The end of a run -/

theorem finish_eq (level : Log.Level) (r : Run) :
    (r.finish level).2 = Interpretation.result r.values := by
  have hc := r.length_values
  cases hv : r.values with
  | nil =>
    rw [hv, List.length_nil] at hc
    simp [finish, ← hc, Interpretation.result]
  | cons x rest =>
    obtain ⟨stack, hp, hr⟩ := pop?_of_values hv
    cases rest with
    | nil =>
      rw [hv] at hc
      simp [finish, ← hc, hp, Interpretation.result]
    | cons y rest =>
      rw [hv] at hc
      simp [finish, ← hc, Interpretation.result]

theorem calls_finish (level : Log.Level) (r : Run) : (r.finish level).1.calls = r.calls := by
  unfold finish
  split
  · rfl
  next =>
    obtain ⟨messages, h⟩ := r.fail_eq level (.malformed r.stack.count)
    simp only [h]

theorem values_finish {level : Log.Level} {r : Run} {x : Float} (h : r.values = [x]) :
    (r.finish level).1.values = [] := by
  obtain ⟨stack, hp, hr⟩ := pop?_of_values h
  have hc := r.length_values
  rw [h] at hc
  simp [finish, ← hc, hp, values, hr]

end Run

/-! ## Evaluation -/

section
variable (level : Log.Level) (value? : String → Option Float) {ts : List Token}
  (stack : OperandStack) (pool : ScratchPool)

/-- **An evaluation is a reading**, whatever the stack and the buffers held before, if every
application that the reading comes to is served. -/
theorem evaluate_agrees (served : ∀ a ∈ (valuation value?).applications [] ts,
      a.1.count.servedBy pool.size = true) :
    (evaluate level value? ts stack pool).2 = (valuation value?).fold ts ∧
      (evaluate level value? ts stack pool).1.calls.toList =
        ((valuation value?).applications [] ts).map Run.callOf := by
  obtain ⟨ends, after⟩ := Run.tokens_agree level value? (r := .start stack pool) served
  simp only [Run.values_start] at ends after
  have calls : ((Run.start stack pool).tokens level value? ts).1.calls.toList =
      ((valuation value?).applications [] ts).map Run.callOf := by
    rw [after.calls]; rfl
  unfold evaluate Interpretation.fold
  cases ht : (Run.start stack pool).tokens level value? ts with
  | mk s stop =>
  rw [ht] at ends calls
  cases hs : (valuation value?).steps [] ts with
  | error e =>
    rw [hs] at ends
    obtain rfl : stop = some e := ends
    exact ⟨rfl, calls⟩
  | ok values =>
    rw [hs] at ends
    obtain ⟨rfl, rfl⟩ : stop = none ∧ s.values = values := ends
    exact ⟨s.finish_eq level, by rw [s.calls_finish level]; exact calls⟩

theorem evaluate_clean {x : Float} (h : (evaluate level value? ts stack pool).2 = .ok x) :
    (evaluate level value? ts stack pool).1.values = [] := by
  unfold evaluate at h ⊢
  cases ht : (Run.start stack pool).tokens level value? ts with
  | mk s stop =>
  rw [ht] at h
  cases stop with
  | some e => cases h
  | none =>
    simp only [s.finish_eq level] at h
    match hv : s.values, h with
    | [y], _ => exact Run.values_finish hv

theorem evaluate_refused (refused : ∃ a ∈ (valuation value?).applications [] ts,
      a.1.count.servedBy pool.size = false) :
    ∃ op, .operation op ∈ ts ∧ op.count.servedBy pool.size = false ∧
      (evaluate level value? ts stack pool).2 = .error (op.count.refusal pool.size) := by
  obtain ⟨op, hop, hn, h⟩ := Run.tokens_refused level value? (r := .start stack pool) refused
  refine ⟨op, hop, hn, ?_⟩
  unfold evaluate
  split
  next heq => rw [heq] at h; cases h
  next e heq => rw [heq] at h; cases h; rfl

end

end ReversePolish

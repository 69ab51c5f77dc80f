/-
How an evaluation ends whatever the counts of its operations are. It makes the
applications that its reading comes to, up to the first for which the pool has
no buffer, and ends with the refusal of that one if there is one
(`evaluate_eq`). So two states that agree on tokens and values end alike
exactly if they refuse alike (`evaluate_alike_iff`): nothing else that is left
from before, and no setting, shows in an evaluation.
-/
import ReversePolish.Proofs.Outcome

namespace ReversePolish

/-! ## Counts and pools -/

namespace Count

/-- Do pools of two sizes treat the count alike? They do if it is a plain whole number, and
otherwise if it lies within both of them or within neither. -/
def AlikeIn (size size' : Nat) (c : Count) : Prop :=
  (∃ n, c = .whole n) ∨ (c.toNat < size ↔ c.toNat < size')

theorem refusal_inj {size size' : Nat} {c c' : Count} (h : c.refusal size = c'.refusal size') :
    c = c' := by
  unfold refusal at h
  split at h
  · split at h
    · cases h; rfl
    · cases h
  · split at h
    · cases h
    · cases h; rfl

/-- To be treated alike is to be served by both pools, or refused by both for one cause. -/
theorem alikeIn_iff {size size' : Nat} {c : Count} :
    c.AlikeIn size size' ↔
      (c.servedBy size = true ∧ c.servedBy size' = true) ∨
        (c.servedBy size = false ∧ c.servedBy size' = false ∧
          c.refusal size = c.refusal size') := by
  cases c with
  | whole n => simp [AlikeIn]
  | truth b =>
    by_cases h : b.toNat < size <;> by_cases h' : b.toNat < size' <;>
      simp [AlikeIn, servedBy, refusal, toNat, isIndex, isLength, h, h']
  | pointed n =>
    by_cases h : n < size <;> by_cases h' : n < size' <;>
      simp [AlikeIn, refusal, toNat, h, h']

end Count

namespace Run

variable {α : Type u}

/-! ## The first refusal -/

/-- The refusal of the first application for which a pool of so many lengths has no buffer. -/
def refusal? (size : Nat) : List (Operation × α) → Option EvalError
  | [] => none
  | a :: rest =>
    if a.1.count.servedBy size then refusal? size rest else some (a.1.count.refusal size)

/-- The applications before that one. -/
def made (size : Nat) (applications : List (Operation × α)) : List (Operation × α) :=
  applications.takeWhile fun a => a.1.count.servedBy size

theorem refusal?_served {size : Nat} {a : Operation × α} (rest : List (Operation × α))
    (served : a.1.count.servedBy size = true) :
    refusal? size (a :: rest) = refusal? size rest ∧ made size (a :: rest) = a :: made size rest :=
  ⟨if_pos served, List.takeWhile_cons_of_pos served⟩

theorem refusal?_refused {size : Nat} {a : Operation × α} (rest : List (Operation × α))
    (refused : a.1.count.servedBy size = false) :
    refusal? size (a :: rest) = some (a.1.count.refusal size) ∧ made size (a :: rest) = [] := by
  simp [refusal?, made, refused]

theorem refusal?_eq_none_iff {size : Nat} {applications : List (Operation × α)} :
    refusal? size applications = none ↔
      ∀ a ∈ applications, a.1.count.servedBy size = true := by
  induction applications with
  | nil => simp [refusal?]
  | cons a rest ih =>
    cases served : a.1.count.servedBy size with
    | true => simp [refusal?_served rest served, ih, served]
    | false => simp [refusal?_refused rest served, served]

theorem made_of_served {size : Nat} {applications : List (Operation × α)}
    (served : ∀ a ∈ applications, a.1.count.servedBy size = true) :
    made size applications = applications := by
  induction applications with
  | nil => rfl
  | cons a rest ih =>
    rw [(refusal?_served rest (served a (List.mem_cons_self ..))).2,
      ih fun b hb => served b (List.mem_cons_of_mem a hb)]

theorem refusal?_append (size : Nat) (applications later : List (Operation × α)) :
    refusal? size (applications ++ later) =
      (refusal? size applications).or (refusal? size later) := by
  induction applications with
  | nil => rfl
  | cons a rest ih =>
    rw [List.cons_append]
    cases served : a.1.count.servedBy size with
    | true => rw [(refusal?_served _ served).1, (refusal?_served _ served).1, ih]
    | false => rw [(refusal?_refused _ served).1, (refusal?_refused _ served).1, Option.some_or]

theorem refusal?_append_of_served {size : Nat} {applications : List (Operation × α)}
    (served : ∀ a ∈ applications, a.1.count.servedBy size = true) (later : List (Operation × α)) :
    refusal? size (applications ++ later) = refusal? size later ∧
      made size (applications ++ later) = applications ++ made size later :=
  ⟨by rw [refusal?_append, refusal?_eq_none_iff.mpr served, Option.none_or],
    List.takeWhile_append_of_pos served⟩

theorem refused_of_refusal? {size : Nat} {applications : List (Operation × α)} {e : EvalError}
    (h : refusal? size applications = some e) :
    ∃ a ∈ applications, a.1.count.servedBy size = false ∧ e = a.1.count.refusal size := by
  induction applications with
  | nil => cases h
  | cons a rest ih =>
    cases served : a.1.count.servedBy size with
    | true =>
      rw [(refusal?_served rest served).1] at h
      obtain ⟨b, hb, refused, he⟩ := ih h
      exact ⟨b, List.mem_cons_of_mem a hb, refused, he⟩
    | false =>
      rw [(refusal?_refused rest served).1] at h
      cases h
      exact ⟨a, List.mem_cons_self .., served, rfl⟩

theorem made_alike {size size' : Nat} {applications : List (Operation × α)}
    (h : refusal? size applications = refusal? size' applications) :
    made size applications = made size' applications := by
  induction applications with
  | nil => rfl
  | cons a rest ih =>
    cases served : a.1.count.servedBy size with
    | true =>
      cases served' : a.1.count.servedBy size' with
      | true =>
        rw [(refusal?_served rest served).1, (refusal?_served rest served').1] at h
        rw [(refusal?_served rest served).2, (refusal?_served rest served').2, ih h]
      | false =>
        -- The first pool would have to refuse later what it has just served.
        rw [(refusal?_served rest served).1, (refusal?_refused rest served').1] at h
        obtain ⟨b, -, refused, he⟩ := refused_of_refusal? h
        rw [Count.refusal_inj he, refused] at served
        cases served
    | false =>
      cases served' : a.1.count.servedBy size' with
      | true =>
        rw [(refusal?_refused rest served).1, (refusal?_served rest served').1] at h
        obtain ⟨b, -, refused, he⟩ := refused_of_refusal? h.symm
        rw [Count.refusal_inj he, refused] at served'
        cases served'
      | false => rw [(refusal?_refused rest served).2, (refusal?_refused rest served').2]

/-- Counts that two pools treat alike are refused alike. -/
theorem refusal?_alike {size size' : Nat} {applications : List (Operation × α)}
    (alike : ∀ a ∈ applications, a.1.count.AlikeIn size size') :
    refusal? size applications = refusal? size' applications := by
  induction applications with
  | nil => rfl
  | cons a rest ih =>
    have ih := ih fun b hb => alike b (List.mem_cons_of_mem a hb)
    rcases Count.alikeIn_iff.mp (alike a (List.mem_cons_self ..)) with
      ⟨served, served'⟩ | ⟨refused, refused', same⟩
    · rw [(refusal?_served rest served).1, (refusal?_served rest served').1, ih]
    · rw [(refusal?_refused rest refused).1, (refusal?_refused rest refused').1, same]

/-! ## A run up to the first refusal -/

theorem token_refused (level : Log.Level) (value? : String → Option Float) {r : Run} {t : Token}
    {a : Operation × List Float} (asked : t.application? r.values = some a)
    (refused : a.1.count.servedBy r.pool.size = false) :
    (r.token level value? t).2 = some (a.1.count.refusal r.pool.size) ∧
      After r [] (r.token level value? t).1 := by
  cases t with
  | number x => cases asked
  | name n => cases asked
  | operation op =>
    by_cases enough : op.arity ≤ r.values.length
    · rw [Token.application?_operation enough] at asked
      cases asked
      obtain ⟨messages, h⟩ := apply_refused level enough refused
      rw [token, h]
      exact ⟨rfl, by simp, r.pool.size_acquire _⟩
    · rw [Token.application?_short (Nat.lt_of_not_le enough)] at asked
      cases asked

/-- **A run that is refused** ends with the first refusal, and has made the applications before
it. -/
theorem tokens_refused_first (level : Log.Level) (value? : String → Option Float)
    {ts : List Token} {r : Run} {e : EvalError}
    (h : refusal? r.pool.size ((valuation value?).applications r.values ts) = some e) :
    (r.tokens level value? ts).2 = some e ∧
      After r (made r.pool.size ((valuation value?).applications r.values ts))
        (r.tokens level value? ts).1 := by
  induction ts generalizing r with
  | nil => cases h
  | cons t ts ih =>
    simp only [Interpretation.applications] at h ⊢
    by_cases served : ∀ a ∈ t.application? r.values, a.1.count.servedBy r.pool.size = true
    · -- The run takes the step that the reading takes, and what is refused comes later.
      obtain ⟨ends, after⟩ := token_agrees level value? served
      have served := fun a ha => served a (Option.mem_toList.mp ha)
      rw [(refusal?_append_of_served served _).1] at h
      rw [(refusal?_append_of_served served _).2, tokens]
      cases hs : (valuation value?).step r.values t with
      | error e' => rw [hs] at h; cases h
      | ok values =>
        rw [hs] at h ends
        cases ht : r.token level value? t with
        | mk s stop =>
        rw [ht] at ends after
        obtain ⟨rfl, rfl⟩ : stop = none ∧ s.values = values := ends
        simp only [← after.size] at h ⊢
        obtain ⟨stopped, made⟩ := ih h
        exact ⟨stopped, after.trans made⟩
    · simp only [Classical.not_forall, Option.mem_def, Bool.not_eq_true] at served
      obtain ⟨a, asked, refused⟩ := served
      obtain ⟨stopped, after⟩ := token_refused level value? asked refused
      rw [asked] at h ⊢
      simp only [Option.toList_some, List.singleton_append] at h ⊢
      rw [(refusal?_refused _ refused).1] at h
      cases h
      rw [(refusal?_refused _ refused).2, tokens]
      cases ht : r.token level value? t with
      | mk s stop =>
      rw [ht] at stopped after
      cases stopped
      exact ⟨rfl, after⟩

theorem pool_finish (level : Log.Level) (r : Run) : (r.finish level).1.pool = r.pool := by
  unfold finish
  split
  · rfl
  next =>
    obtain ⟨messages, h⟩ := r.fail_eq level (.malformed r.stack.count)
    simp only [h]

theorem size_tokens (level : Log.Level) (value? : String → Option Float) (r : Run)
    (ts : List Token) : (r.tokens level value? ts).1.pool.size = r.pool.size := by
  cases h : refusal? r.pool.size ((valuation value?).applications r.values ts) with
  | some e => exact (tokens_refused_first level value? h).2.size
  | none => exact (tokens_agree level value? (refusal?_eq_none_iff.mp h)).2.size

end Run

/-! ## Evaluation -/

/-- **How an evaluation ends**: with the first refusal, if the reading comes to an application
that is refused, and otherwise as the reading does. It has made the applications before. -/
theorem evaluate_eq (level : Log.Level) (value? : String → Option Float) (ts : List Token)
    (stack : OperandStack) (pool : ScratchPool) :
    (evaluate level value? ts stack pool).2 =
        (match Run.refusal? pool.size ((valuation value?).applications [] ts) with
          | some e => .error e
          | none => (valuation value?).fold ts) ∧
      (evaluate level value? ts stack pool).1.calls.toList =
        (Run.made pool.size ((valuation value?).applications [] ts)).map Run.callOf := by
  cases h : Run.refusal? pool.size ((valuation value?).applications [] ts) with
  | none =>
    have served := Run.refusal?_eq_none_iff.mp h
    rw [Run.made_of_served served]
    exact evaluate_agrees level value? stack pool served
  | some e =>
    obtain ⟨stopped, after⟩ := Run.tokens_refused_first level value? (r := .start stack pool) h
    unfold evaluate
    cases ht : (Run.start stack pool).tokens level value? ts with
    | mk s stop =>
    rw [ht] at stopped after
    cases stopped
    exact ⟨rfl, after.calls⟩

theorem size_evaluate (level : Log.Level) (value? : String → Option Float) (ts : List Token)
    (stack : OperandStack) (pool : ScratchPool) :
    (evaluate level value? ts stack pool).1.pool.size = pool.size := by
  have size : ((Run.start stack pool).tokens level value? ts).1.pool.size = pool.size :=
    Run.size_tokens level value? (.start stack pool) ts
  unfold evaluate
  split
  next r h => rw [Run.pool_finish, ← size, h]
  next r cause h => rw [← size, h]

namespace Expression

def refusal? (e : Expression) : Option EvalError :=
  Run.refusal? e.pool.size (e.reading.applications [] e.tokens)

/-- **Two states that agree on tokens and values evaluate alike**, with one outcome and the same
calls, exactly if they refuse alike. -/
theorem evaluate_alike_iff {e e' : Expression} (level level' : Log.Level)
    (tokens : e.tokens = e'.tokens)
    (values : ∀ n, e.bindings.value? n = e'.bindings.value? n) :
    ((e.evaluate level).2 = (e'.evaluate level').2 ∧
        (e.evaluate level).1.calls.toList = (e'.evaluate level').1.calls.toList) ↔
      e.refusal? = e'.refusal? := by
  have reading : e'.bindings.value? = e.bindings.value? := funext fun n => (values n).symm
  obtain ⟨hv, hc⟩ := evaluate_eq level e.bindings.value? e.tokens e.stack e.pool
  obtain ⟨hv', hc'⟩ := evaluate_eq level' e'.bindings.value? e'.tokens e'.stack e'.pool
  unfold refusal? Expression.reading evaluate
  rw [hv, hv', hc, hc', reading, ← tokens]
  constructor
  · rintro ⟨outcomes, -⟩
    -- No reading ends with a refusal, so one side alone is not refused.
    cases h : Run.refusal? e.pool.size ((valuation e.bindings.value?).applications [] e.tokens) with
    | none =>
      cases h' : Run.refusal? e'.pool.size
          ((valuation e.bindings.value?).applications [] e.tokens) with
      | none => rfl
      | some cause' =>
        rw [h, h'] at outcomes
        obtain ⟨a, -, -, rfl⟩ := Run.refused_of_refusal? h'
        exact absurd outcomes (fold_ne_refusal _ _ _ _)
    | some cause =>
      cases h' : Run.refusal? e'.pool.size
          ((valuation e.bindings.value?).applications [] e.tokens) with
      | none =>
        rw [h, h'] at outcomes
        obtain ⟨a, -, -, rfl⟩ := Run.refused_of_refusal? h
        exact absurd outcomes.symm (fold_ne_refusal _ _ _ _)
      | some cause' =>
        rw [h, h'] at outcomes
        exact congrArg some (Except.error.inj outcomes)
  · intro h
    rw [h, Run.made_alike h]
    exact ⟨rfl, rfl⟩

end Expression
end ReversePolish

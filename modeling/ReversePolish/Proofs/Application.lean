/-
What one application does to a run: the stack loses the arguments, whatever
lies below them, and the buffer that was given out holds them in order,
whatever it held before. A buffer is always given out for a count that is a
plain whole number; `Count.servedBy` says for which others it is.
-/
import ReversePolish.Evaluation

namespace ReversePolish

/-! ## Which counts are served -/

namespace Count

/-- Is a request for a buffer met by a pool of so many lengths? A pooled buffer is picked by its
place, and a new one is made of a length. -/
def servedBy (size : Nat) (c : Count) : Bool :=
  if c.toNat < size then c.isIndex else c.isLength

/-- What is said of a count for which no buffer is given out. -/
def refusal (size : Nat) (c : Count) : EvalError :=
  if c.toNat < size then .notIndex c else .notLength c

@[simp] theorem servedBy_whole (size n : Nat) : (whole n).servedBy size = true := by
  simp [servedBy, isIndex, isLength]

@[simp] theorem servedBy_pointed (size n : Nat) : (pointed n).servedBy size = false := by
  simp [servedBy, isIndex, isLength]

theorem isIndex_of_servedBy {size : Nat} {c : Count} (h : c.servedBy size = true) :
    c.isIndex = true := by
  cases c with
  | whole n => rfl
  | truth b => rfl
  | pointed n => simp at h

end Count

/-! ## The pool -/

namespace ScratchPool

@[simp] theorem size_acquire (p : ScratchPool) (n : Nat) : (p.acquire n).2.size = p.size := by
  unfold acquire
  split <;> rfl

theorem room_acquire (p : ScratchPool) (n : Nat) : (p.acquire n).2.room = p.room := by
  unfold acquire
  split <;> rfl

theorem acquire_pooled {p : ScratchPool} {n : Nat} (below : n < p.size) :
    p.acquire n = (n, { p with hits := p.hits + 1 }) := if_pos below

/-- For any other length there is a new buffer behind all others. -/
theorem acquire_own {p : ScratchPool} {n : Nat} (beyond : p.size ≤ n) :
    (p.acquire n).1 = p.heap.size ∧ (p.acquire n).2.heap.size = p.heap.size + 1 ∧
      (p.acquire n).2.hits = p.hits ∧ (p.acquire n).2.misses = p.misses + 1 := by
  simp [acquire, Nat.not_lt.mpr beyond]

end ScratchPool

namespace Run

/-! ## The values of a run -/

/-- The values on the stack, the newest first. -/
def values (r : Run) : List Float := r.stack.toList.reverse

@[simp] theorem length_values (r : Run) : r.values.length = r.stack.count := by simp [values]

@[simp] theorem values_start (stack : OperandStack) (pool : ScratchPool) :
    (start stack pool).values = [] := rfl

@[simp] theorem values_push (r : Run) (x : Float) : (r.push x).values = x :: r.values := by
  simp [values, push]

theorem pop?_of_values {r : Run} {x : Float} {rest : List Float} (h : r.values = x :: rest) :
    ∃ stack, r.stack.pop? = some (x, stack) ∧ stack.toList.reverse = rest :=
  OperandStack.exists_pop? h

/-! ## Reports and requests -/

theorem report_eq (level : Log.Level) (r : Run) (m : Log.Message) :
    ∃ messages, r.report level m = { r with messages := messages } := by
  unfold report
  split
  · exact ⟨_, rfl⟩
  · exact ⟨r.messages, rfl⟩

theorem fail_eq (level : Log.Level) (r : Run) (e : EvalError) :
    ∃ messages, r.fail level e = ({ r with messages := messages }, some e) := by
  obtain ⟨messages, h⟩ := r.report_eq level ⟨.debug, "Evaluation failed: " ++ e.message⟩
  exact ⟨messages, by rw [fail, h]⟩

/-- A request changes nothing but the pool and what was reported, and it is met if the count is
served. -/
theorem acquire_eq (level : Log.Level) (c : Count) (r : Run) :
    ∃ messages, r.acquire level c =
      ({ r with pool := (r.pool.acquire c.toNat).2, messages := messages },
        if c.servedBy r.pool.size then .ok (r.pool.acquire c.toNat).1
        else .error (c.refusal r.pool.size)) := by
  simp only [acquire, Count.servedBy, Count.refusal]
  split
  · exact ⟨r.messages, rfl⟩
  · obtain ⟨messages, h⟩ := ({ r with pool := (r.pool.acquire c.toNat).2 } : Run).report_eq level
      ⟨.debug, "Scratch pool miss: allocating buffer of size " ++ c.text⟩
    exact ⟨messages, by rw [h]⟩

theorem acquire_served (level : Log.Level) {c : Count} {r : Run}
    (served : c.servedBy r.pool.size = true) :
    ∃ s address, r.acquire level c = (s, .ok address) ∧ s.values = r.values ∧
      s.calls = r.calls ∧ s.pool.size = r.pool.size ∧
      (s.pool.contents address).length = c.toNat := by
  obtain ⟨messages, h⟩ := r.acquire_eq level c
  refine ⟨{ r with pool := (r.pool.acquire c.toNat).2, messages := messages },
    (r.pool.acquire c.toNat).1, ?_, rfl, rfl, r.pool.size_acquire _,
    r.pool.length_contents_acquire _⟩
  rw [h, if_pos served]

/-! ## Staging -/

/-- A run after the newest values `taken` were moved to the buffer at an address, with the values
`below` left: the buffer holds them in the order in which they were pushed, and beyond them what
it held before. -/
structure Staged (address : Nat) (taken below : List Float) (r s : Run) : Prop where
  values : s.values = below
  contents : s.pool.contents address =
    taken.reverse ++ (r.pool.contents address).drop taken.length
  size : s.pool.size = r.pool.size
  calls : s.calls = r.calls

theorem stage_staged {address : Nat} {below : List Float} : ∀ {taken : List Float} {r : Run},
    r.values = taken ++ below → taken.length ≤ (r.pool.contents address).length →
    Staged address taken below r (r.stage address taken.length)
  | [], r, hv, _ => ⟨hv, rfl, rfl, rfl⟩
  | x :: taken, r, hv, hl => by
    obtain ⟨stack, hp, hs⟩ := pop?_of_values hv
    simp only [List.length_cons] at hl
    simp only [List.length_cons, stage, hp]
    -- The newest value goes to the last of the cells, and the rest are staged before it.
    have ih := @stage_staged address below taken
      { r with stack := stack, pool := r.pool.write address taken.length x } hs (by simp; omega)
    refine ⟨ih.values, ?_, ih.size, ih.calls⟩
    rw [ih.contents, ScratchPool.contents_write_self, List.drop_eq_getElem_cons (by simp; omega),
      List.drop_set_of_lt (Nat.lt_succ_self _)]
    simp

/-! ## An application -/

/-- The state of a run in which the kernel of an operation is applied: the newest values were
taken, and the call was noted. -/
structure Ready (op : Operation) (r s : Run) : Prop where
  values : s.values = r.values.drop op.arity
  calls : s.calls = r.calls.push ⟨op, (r.values.take op.arity).reverse⟩
  size : s.pool.size = r.pool.size

/-- The end of an application: the value of the kernel is pushed, or its error stops the run. -/
def settle (s : Run) : Except ApplyError Float → Run × Option EvalError
  | .ok x => (s.push x, none)
  | .error e => (s, some (.apply e))

/-- An operation that finds enough values, and whose count is served, is applied to the newest
values in the order in which they were pushed. -/
theorem apply_served (level : Log.Level) {op : Operation} {r : Run}
    (enough : op.arity ≤ r.values.length) (served : op.count.servedBy r.pool.size = true) :
    ∃ s, Ready op r s ∧
      r.apply level op = s.settle (op.apply (r.values.take op.arity).reverse) := by
  obtain ⟨asked, address, ha, hv, hc, hs, (hbuf : _ = op.arity)⟩ := acquire_served level served
  have hlen : (r.values.take op.arity).length = op.arity := List.length_take_of_le enough
  have split : asked.values = r.values.take op.arity ++ r.values.drop op.arity := by
    rw [hv, List.take_append_drop]
  have room : (r.values.take op.arity).length ≤ (asked.pool.contents address).length :=
    Nat.le_of_eq (hlen.trans hbuf.symm)
  have hst := stage_staged split room
  rw [hlen] at hst
  -- The buffer has no cells beyond the arguments, so nothing in it is left over.
  have hargs : (asked.stage address op.arity).pool.contents address =
      (r.values.take op.arity).reverse := by
    rw [hst.contents, hlen, List.drop_eq_nil_of_le (Nat.le_of_eq hbuf), List.append_nil]
  refine ⟨{ asked.stage address op.arity with
      calls := r.calls.push ⟨op, (r.values.take op.arity).reverse⟩ },
    ⟨hst.values, rfl, hst.size.trans hs⟩, ?_⟩
  have hn : ¬ r.stack.count < op.arity := by simpa using enough
  simp only [apply, hn, if_false, ha, hargs, hst.calls, hc]
  cases op.apply (r.values.take op.arity).reverse <;> rfl

theorem apply_refused (level : Log.Level) {op : Operation} {r : Run}
    (enough : op.arity ≤ r.values.length) (refused : op.count.servedBy r.pool.size = false) :
    ∃ messages, r.apply level op =
      ({ r with pool := (r.pool.acquire op.arity).2, messages := messages },
        some (op.count.refusal r.pool.size)) := by
  obtain ⟨messages, ha⟩ := r.acquire_eq level op.count
  have hn : ¬ r.stack.count < op.arity := by simpa using enough
  refine ⟨messages, ?_⟩
  simp only [apply, hn, if_false, ha, refused, Bool.false_eq_true]
  rfl

theorem apply_short (level : Log.Level) {op : Operation} {r : Run}
    (short : r.values.length < op.arity) :
    ∃ messages, r.apply level op =
      ({ r with messages := messages }, some (.tooFew op r.values.length)) := by
  rw [length_values] at short ⊢
  simp only [apply, short, if_true]
  exact r.fail_eq level _

end Run
end ReversePolish

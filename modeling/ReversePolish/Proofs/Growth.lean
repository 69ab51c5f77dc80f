/-
The operand stack against a plain list. Every call has the reply that it has
of a list on which values are put in front, so no reply ever comes from a cell
that nothing was pushed to since (`calls_match`). The capacity is known from the
first one and from the greatest number of values so far: it is the least of the
first, its double, the double of that and so on in which they have room
(`Grown`). Only a push changes it, and never to a smaller one.
-/
import Mathlib.Data.List.Forall2
import Mathlib.Order.Bounds.Basic
import ReversePolish.OperandStack

namespace ReversePolish
namespace OperandStack

/-! ## A plain stack -/

/-- A list of values, the newest first, and the greatest number of values that there were. -/
structure Plain where
  values : List Float
  peak : Nat
  length_le : values.length ≤ peak

namespace Plain

def empty : Plain := ⟨[], 0, Nat.le_refl 0⟩

def become (p : Plain) (values : List Float) : Plain :=
  ⟨values, max p.peak values.length, Nat.le_max_right ..⟩

/-- One call: what it gives back of such values, and the stack after it. Without values there is
nothing to take or to show, and all stays as it is. -/
def call (p : Plain) : Call → Reply × Plain
  | .push x => (.done, p.become (x :: p.values))
  | .pop => match p.values with
    | x :: rest => (.value x, p.become rest)
    | [] => (.error .popEmpty, p)
  | .peek => match p.values with
    | x :: _ => (.value x, p)
    | [] => (.error .peekEmpty, p)
  | .size => (.size p.values.length, p)
  | .isEmpty => (.truth p.values.isEmpty, p)
  | .reset => (.done, p.become [])

def calls (p : Plain) : List Call → List (Reply × Plain)
  | [] => []
  | c :: rest =>
    let answer := p.call c
    answer :: answer.2.calls rest

theorem peak_become {p : Plain} {values : List Float} (h : values.length ≤ p.values.length) :
    (p.become values).peak = p.peak := Nat.max_eq_left (Nat.le_trans h p.length_le)

end Plain

/-! ## Capacities -/

/-- The stack has the capacity of one that started with `first` cells and has held `peak` values at
most: the least of `first`, its double, the double of that and so on in which they have room. -/
structure Grown (first peak : Nat) (s : OperandStack) : Prop where
  held : s.count ≤ peak
  capacity : ∃ j, s.capacity = first * 2 ^ j ∧ IsLeast {j | peak ≤ first * 2 ^ j} j

theorem Grown.ofCapacity {first : Nat} (pos : 0 < first) : Grown first 0 (ofCapacity first pos) :=
  ⟨Nat.le_refl 0, 0, by simp, Nat.zero_le _, fun _ _ => Nat.zero_le _⟩

theorem Grown.withLeftover {first peak : Nat} {s : OperandStack} (h : Grown first peak s)
    (leftover : Nat → Float) : Grown first peak (s.withLeftover leftover) :=
  ⟨h.held, by rw [capacity_withLeftover]; exact h.capacity⟩

theorem Grown.peak_le {first peak : Nat} {s : OperandStack} (h : Grown first peak s) :
    peak ≤ s.capacity := by
  obtain ⟨j, capacity, room, -⟩ := h.capacity
  rw [capacity]
  exact room

/-- Unless it is the first capacity, it is less than twice as much as was held. -/
theorem Grown.capacity_lt {first peak : Nat} {s : OperandStack} (h : Grown first peak s) :
    s.capacity = first ∨ s.capacity < 2 * peak := by
  obtain ⟨j, capacity, -, least⟩ := h.capacity
  cases j with
  | zero => exact .inl (by rw [capacity, Nat.pow_zero, Nat.mul_one])
  | succ j =>
    have half : first * 2 ^ j < peak :=
      Nat.lt_of_not_le fun room => absurd (least room) (Nat.not_succ_le_self j)
    have twice : first * 2 ^ (j + 1) = 2 * (first * 2 ^ j) := by
      rw [Nat.pow_succ, ← Nat.mul_assoc, Nat.mul_comm]
    exact .inr (by omega)

theorem Grown.shrink {first peak : Nat} {s t : OperandStack} (h : Grown first peak s)
    (fewer : t.count ≤ s.count) (capacity : t.capacity = s.capacity) : Grown first peak t :=
  ⟨Nat.le_trans fewer h.held, by rw [capacity]; exact h.capacity⟩

theorem count_push (s : OperandStack) (x : Float) : (s.push x).count = s.count + 1 := by
  rw [← length_toList, toList_push, List.length_append, length_toList]
  rfl

/-- A push changes the capacity only when there are as many values as ever and they fill it. -/
theorem Grown.push {first peak : Nat} {s : OperandStack} (h : Grown first peak s) (pos : 0 < first)
    (x : Float) : Grown first (max peak (s.count + 1)) (s.push x) := by
  refine ⟨by rw [count_push]; exact Nat.le_max_right .., ?_⟩
  have held := h.held
  have fits := h.peak_le
  obtain ⟨j, capacity, room, least⟩ := h.capacity
  rw [capacity_push]
  by_cases vacant : s.count < s.capacity
  · rw [if_pos vacant]
    refine ⟨j, capacity, ?_, fun i hi => least (Nat.le_trans (Nat.le_max_left ..) hi)⟩
    show max peak (s.count + 1) ≤ first * 2 ^ j
    omega
  · -- The cells are full, so the new value is one more than ever.
    rw [if_neg vacant]
    have full : peak = first * 2 ^ j := by omega
    have more : max peak (s.count + 1) = first * 2 ^ j + 1 := by omega
    have some : 0 < first * 2 ^ j := Nat.mul_pos pos (Nat.two_pow_pos j)
    have twice : first * 2 ^ (j + 1) = first * 2 ^ j + first * 2 ^ j := by
      rw [Nat.pow_succ, ← Nat.mul_assoc, Nat.mul_two]
    rw [more]
    refine ⟨j + 1, by rw [capacity, twice], ?_, fun i hi => ?_⟩
    · show first * 2 ^ j + 1 ≤ first * 2 ^ (j + 1)
      omega
    · have below : 2 ^ j < 2 ^ i := Nat.lt_of_mul_lt_mul_left (Nat.lt_of_succ_le hi)
      exact (Nat.pow_lt_pow_iff_right (Nat.lt_succ_self 1)).mp below

theorem capacity_call (s : OperandStack) (c : Call) :
    s.capacity ≤ (s.call c).2.capacity ∧
      ((∀ x, c ≠ .push x) → (s.call c).2.capacity = s.capacity) := by
  cases c with
  | push x =>
    refine ⟨?_, fun other => absurd rfl (other x)⟩
    simp only [call, capacity_push]
    split
    · exact Nat.le_refl _
    · exact Nat.le_add_right ..
  | pop =>
    have same : (s.call .pop).2.capacity = s.capacity := by
      simp only [call]
      cases h : s.pop? with
      | none => rfl
      | some p => exact capacity_of_pop?_eq_some h
    exact ⟨Nat.le_of_eq same.symm, fun _ => same⟩
  | peek =>
    simp only [call]
    split <;> exact ⟨Nat.le_refl _, fun _ => rfl⟩
  | size | isEmpty | reset => exact ⟨Nat.le_refl _, fun _ => rfl⟩

/-! ## Calls -/

/-- The stack stands for the plain one: it has its values, and the capacity that comes of their
greatest number. -/
structure StandsFor (first : Nat) (s : OperandStack) (p : Plain) : Prop where
  values : s.toList.reverse = p.values
  grown : Grown first p.peak s

section
variable {first : Nat} {s : OperandStack} {p : Plain}

theorem StandsFor.count (h : StandsFor first s p) : s.count = p.values.length := by
  rw [← length_toList, ← List.length_reverse, h.values]

theorem StandsFor.size_le (h : StandsFor first s p) : p.values.length ≤ s.capacity :=
  Nat.le_trans p.length_le h.grown.peak_le

theorem StandsFor.shrink {t : OperandStack} {values : List Float} (h : StandsFor first s p)
    (ht : t.toList.reverse = values) (fewer : values.length ≤ p.values.length)
    (capacity : t.capacity = s.capacity) : StandsFor first t (p.become values) := by
  refine ⟨ht, ?_⟩
  rw [Plain.peak_become fewer]
  refine h.grown.shrink ?_ capacity
  rw [h.count, ← length_toList, ← List.length_reverse, ht]
  exact fewer

/-- **One call** has the reply that it has of the plain stack, and leaves a stack that stands for
the one left there. -/
theorem StandsFor.call (h : StandsFor first s p) (pos : 0 < first) (c : Call) :
    (s.call c).1 = (p.call c).1 ∧ StandsFor first (s.call c).2 (p.call c).2 := by
  cases c with
  | push x =>
    refine ⟨rfl, ?_, ?_⟩
    · simp only [OperandStack.call, Plain.call, Plain.become, toList_push, List.reverse_append,
        List.reverse_singleton, List.singleton_append, h.values]
    · have grown := h.grown.push pos x
      rw [h.count] at grown
      exact grown
  | pop =>
    simp only [OperandStack.call, Plain.call]
    cases hv : p.values with
    | nil =>
      have none : s.pop? = none := s.pop?_eq_none_iff.mpr (by simpa [hv] using h.values)
      rw [none]
      exact ⟨rfl, h⟩
    | cons x rest =>
      obtain ⟨t, popped, ht⟩ := exists_pop? (h.values.trans hv)
      rw [popped]
      refine ⟨rfl, h.shrink ht ?_ (capacity_of_pop?_eq_some popped)⟩
      rw [hv]
      exact Nat.le_succ _
  | peek =>
    simp only [OperandStack.call, Plain.call, peek?_eq]
    cases hv : p.values with
    | nil =>
      have none : s.pop? = none := s.pop?_eq_none_iff.mpr (by simpa [hv] using h.values)
      rw [none]
      exact ⟨rfl, h⟩
    | cons x rest =>
      obtain ⟨t, popped, -⟩ := exists_pop? (h.values.trans hv)
      rw [popped]
      exact ⟨rfl, h⟩
  | size => exact ⟨congrArg Reply.size h.count, h⟩
  | isEmpty =>
    refine ⟨congrArg Reply.truth ?_, h⟩
    rw [isEmpty, h.count]
    cases p.values <;> rfl
  | reset =>
    have values : s.reset.toList.reverse = [] := congrArg List.reverse s.toList_reset
    exact ⟨rfl, h.shrink values (Nat.zero_le _) (capacity_reset s)⟩

theorem StandsFor.calls (pos : 0 < first) (script : List Call) (h : StandsFor first s p) :
    List.Forall₂ (fun found plain => found.1 = plain.1 ∧ StandsFor first found.2 plain.2)
      (s.calls script) (p.calls script) := by
  induction script generalizing s p with
  | nil => exact .nil
  | cons c rest ih =>
    have one := h.call pos c
    exact .cons one (ih one.2)

end

/-- What came of a call is what comes of it with the plain stack: the same reply and the same
values, for which there is room, and the capacity of the greatest number of values so far. -/
structure Matches (first : Nat) (found : Reply × OperandStack) (plain : Reply × Plain) : Prop where
  reply : found.1 = plain.1
  values : found.2.toList.reverse = plain.2.values
  room : found.2.count ≤ found.2.capacity
  grown : Grown first plain.2.peak found.2

/-- **The stack is a plain stack, with the room that it has needed.** Whatever its first capacity
and whatever the calls, all that comes of them is what comes of them with the plain stack, which
starts empty. No call makes the capacity smaller, and all but pushes keep it. -/
theorem calls_match (first : Nat) (pos : 0 < first) (script : List Call) :
    List.Forall₂ (Matches first) ((ofCapacity first pos).calls script)
        (Plain.empty.calls script) ∧
      ∀ (s : OperandStack) (c : Call), s.capacity ≤ (s.call c).2.capacity ∧
        ((∀ x, c ≠ .push x) → (s.call c).2.capacity = s.capacity) := by
  have start : StandsFor first (ofCapacity first pos) .empty := ⟨rfl, .ofCapacity pos⟩
  refine ⟨(start.calls pos script).imp fun found plain stands => ?_, capacity_call⟩
  obtain ⟨reply, stands⟩ := stands
  refine ⟨reply, stands.values, ?_, stands.grown⟩
  rw [stands.count]
  exact stands.size_le

def overflow : List Call := [.push 1.0, .push 2.0, .push 3.0, .pop, .peek, .reset, .pop, .push 4.0]

theorem calls_match_overflow :
    0 < 2 ∧
      List.Forall₂ (Matches 2) ((ofCapacity 2 (by decide)).calls overflow)
        (Plain.empty.calls overflow) ∧
      (Plain.empty.calls overflow).map Prod.fst =
        [.done, .done, .done, .value 3.0, .value 2.0, .done, .error .popEmpty, .done] ∧
      ((Plain.empty.calls overflow).map fun plain => plain.2.peak) = [1, 2, 3, 3, 3, 3, 3, 3] ∧
      (((ofCapacity 2 (by decide)).calls overflow).map fun found => found.2.capacity) =
        [2, 2, 4, 4, 4, 4, 4, 4] :=
  ⟨by decide, (calls_match 2 (by decide) overflow).1, rfl, rfl, rfl⟩

end OperandStack
end ReversePolish

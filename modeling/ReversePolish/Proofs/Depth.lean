/-
How many values the tokens of a sequence leave. Only the numbers of values
that they take are looked at, so this is known without reading the sequence.
A sequence leaves some number of values exactly if it lists as many trees,
one after the other (`depth?_eq_some_iff`).
-/
import ReversePolish.Proofs.Reading
import ReversePolish.Tree

namespace ReversePolish

/-- The number of values after the tokens, with `n` before them, if each token finds as many as it
takes. -/
def depth? (n : Nat) : List Token → Option Nat
  | [] => some n
  | t :: rest => if t.arity ≤ n then depth? (n - t.arity + 1) rest else none

theorem depth?_cons {n : Nat} {t : Token} (ts : List Token) (h : t.arity ≤ n) :
    depth? n (t :: ts) = depth? (n - t.arity + 1) ts := if_pos h

theorem depth?_cons_eq_some {n m : Nat} {t : Token} {ts : List Token}
    (h : depth? n (t :: ts) = some m) :
    t.arity ≤ n ∧ depth? (n - t.arity + 1) ts = some m := by
  by_cases ha : t.arity ≤ n
  · rw [depth?_cons ts ha] at h
    exact ⟨ha, h⟩
  · simp [depth?, ha] at h

theorem depth?_append {n m : Nat} {ts : List Token} (us : List Token)
    (h : depth? n ts = some m) : depth? n (ts ++ us) = depth? m us := by
  induction ts generalizing n with
  | nil => cases h; rfl
  | cons t ts ih =>
    obtain ⟨ha, h⟩ := depth?_cons_eq_some h
    rw [List.cons_append, depth?_cons _ ha]
    exact ih h

theorem depth?_add {n m : Nat} {ts : List Token} (k : Nat) (h : depth? n ts = some m) :
    depth? (n + k) ts = some (m + k) := by
  induction ts generalizing n with
  | nil => cases h; rfl
  | cons t ts ih =>
    obtain ⟨ha, h⟩ := depth?_cons_eq_some h
    rw [depth?_cons ts (by omega)]
    have ih := ih h
    rwa [show n - t.arity + 1 + k = n + k - t.arity + 1 by omega] at ih

theorem depth?_pos {n m : Nat} {ts : List Token} (hn : 0 < n ∨ ts ≠ [])
    (h : depth? n ts = some m) : 0 < m := by
  induction ts generalizing n with
  | nil =>
    cases h
    rcases hn with hn | hn
    · exact hn
    · exact absurd rfl hn
  | cons t ts ih => exact ih (.inl (Nat.succ_pos _)) (depth?_cons_eq_some h).2

/-! ## The number of values as a sum -/

/-- What the tokens add to the number of values: the sum, over all of them, of the one value that a
token leaves less those that it takes. -/
def netDepth : List Token → Int
  | [] => 0
  | t :: rest => 1 - (t.arity : Int) + netDepth rest

theorem depth?_eq_netDepth {n m : Nat} {ts : List Token} (h : depth? n ts = some m) :
    (m : Int) = n + netDepth ts := by
  induction ts generalizing n with
  | nil => cases h; simp [netDepth]
  | cons t ts ih =>
    obtain ⟨enough, h⟩ := depth?_cons_eq_some h
    rw [ih h, netDepth]
    omega

/-- Every token finds as many values as it takes among those that the tokens before it add. -/
def Fits (ts : List Token) : Prop :=
  ∀ before t after, ts = before ++ t :: after → (t.arity : Int) ≤ netDepth before

theorem depth?_isSome_iff {n : Nat} {ts : List Token} : (∃ m, depth? n ts = some m) ↔
    ∀ before t after, ts = before ++ t :: after → (t.arity : Int) ≤ n + netDepth before := by
  induction ts generalizing n with
  | nil => simp [depth?]
  | cons u ts ih =>
    constructor
    · rintro ⟨m, h⟩ before t after listed
      obtain ⟨enough, h⟩ := depth?_cons_eq_some h
      cases before with
      | nil => cases listed; simp [netDepth]; omega
      | cons v before =>
        cases listed
        have later := ih.mp ⟨m, h⟩ before t after rfl
        rw [netDepth]
        omega
    · intro h
      have enough := h [] u ts rfl
      simp only [netDepth] at enough
      rw [depth?_cons ts (by omega)]
      refine ih.mpr fun before t after listed => ?_
      have later := h (u :: before) t after (by rw [listed]; rfl)
      rw [netDepth] at later
      omega

theorem fits_iff {ts : List Token} : Fits ts ↔ ∃ m, depth? 0 ts = some m := by
  simp [depth?_isSome_iff, Fits]

theorem not_fits_iff {ts : List Token} : ¬ Fits ts ↔ depth? 0 ts = none := by
  rw [fits_iff, ← Option.isSome_iff_exists, Option.not_isSome_iff_eq_none]

/-- Where no number of values is left there is a first token that finds too few, an operation. -/
theorem depth?_eq_none {n : Nat} {ts : List Token} (h : depth? n ts = none) :
    ∃ before op after d, ts = before ++ .operation op :: after ∧ depth? n before = some d ∧
      d < op.arity := by
  induction ts generalizing n with
  | nil => cases h
  | cons t ts ih =>
    by_cases enough : t.arity ≤ n
    · rw [depth?_cons ts enough] at h
      obtain ⟨before, op, after, d, rfl, hd, short⟩ := ih h
      exact ⟨t :: before, op, after, d, rfl, by rw [depth?_cons before enough]; exact hd, short⟩
    · cases t with
      | number x => exact absurd (Nat.zero_le n) enough
      | name s => exact absurd (Nat.zero_le n) enough
      | operation op => exact ⟨[], op, ts, n, rfl, rfl, Nat.lt_of_not_le enough⟩

namespace Tree

/-! ## Lists of trees -/

theorem allWellFormed_append {ts us : List Tree} :
    AllWellFormed (ts ++ us) ↔ AllWellFormed ts ∧ AllWellFormed us := by
  induction ts with
  | nil => simp [AllWellFormed]
  | cons t ts ih => simp only [List.cons_append, AllWellFormed, ih, and_assoc]

theorem allWellFormed_concat {us : List Tree} {t : Tree} (hus : AllWellFormed us)
    (ht : t.WellFormed) : AllWellFormed (us ++ [t]) :=
  allWellFormed_append.mpr ⟨hus, ht, trivial⟩

theorem postorderAll_append (ts us : List Tree) :
    postorderAll (ts ++ us) = postorderAll ts ++ postorderAll us := by
  induction ts with
  | nil => rfl
  | cons t ts ih => rw [List.cons_append, postorderAll, postorderAll, ih, List.append_assoc]

theorem postorderAll_singleton (t : Tree) : postorderAll [t] = t.postorder := by
  simp [postorderAll]

/-! ## A listing leaves a value for each tree -/

mutual

theorem depth?_postorder : ∀ (t : Tree) (n : Nat), t.WellFormed →
    depth? n t.postorder = some (n + 1)
  | .number x, n, _ => rfl
  | .name s, n, _ => rfl
  | .node op args, n, wf => by
    have hargs := depth?_postorderAll args n wf.2
    have hlen : args.length = op.arity := wf.1
    rw [postorder, depth?_append _ hargs, hlen,
      depth?_cons [] (show op.arity ≤ n + op.arity by omega)]
    simp [depth?, Token.arity]

theorem depth?_postorderAll : ∀ (ts : List Tree) (n : Nat), AllWellFormed ts →
    depth? n (postorderAll ts) = some (n + ts.length)
  | [], n, _ => rfl
  | t :: rest, n, wf => by
    rw [postorderAll, depth?_append _ (depth?_postorder t n wf.1),
      depth?_postorderAll rest (n + 1) wf.2, List.length_cons]
    congr 1
    omega

end

/-! ## What leaves values lists trees -/

/-- One token after a listing of trees: it becomes a tree of its own, with as many of the last
trees below it as it takes. -/
theorem exists_trees_step {us : List Tree} {t : Token} (wf : AllWellFormed us)
    (enough : t.arity ≤ us.length) :
    ∃ vs, AllWellFormed vs ∧ vs.length = us.length - t.arity + 1 ∧
      postorderAll vs = postorderAll us ++ [t] := by
  cases t with
  | number x =>
    refine ⟨us ++ [.number x], ?_, ?_, ?_⟩
    · exact allWellFormed_concat wf trivial
    · simp [Token.arity]
    · rw [postorderAll_append, postorderAll_singleton, postorder]
  | name s =>
    refine ⟨us ++ [.name s], ?_, ?_, ?_⟩
    · exact allWellFormed_concat wf trivial
    · simp [Token.arity]
    · rw [postorderAll_append, postorderAll_singleton, postorder]
  | operation op =>
    have enough : op.arity ≤ us.length := enough
    let k := us.length - op.arity
    rw [← List.take_append_drop k us, allWellFormed_append] at wf
    have hlen : (us.drop k).length = op.arity := by rw [List.length_drop]; omega
    refine ⟨us.take k ++ [.node op (us.drop k)], ?_, ?_, ?_⟩
    · exact allWellFormed_concat wf.1 ⟨hlen, wf.2⟩
    · simp only [List.length_append, List.length_take, List.length_singleton, Token.arity]
      omega
    · rw [postorderAll_append, postorderAll_singleton, postorder, ← List.append_assoc,
        ← postorderAll_append, List.take_append_drop]

/-- Tokens that find their values after a listing of trees go on to list trees. -/
theorem exists_trees {ts : List Token} {us : List Tree} {m : Nat} (wf : AllWellFormed us)
    (h : depth? us.length ts = some m) :
    ∃ vs, AllWellFormed vs ∧ vs.length = m ∧ postorderAll vs = postorderAll us ++ ts := by
  induction ts generalizing us with
  | nil => cases h; exact ⟨us, wf, rfl, by rw [List.append_nil]⟩
  | cons t ts ih =>
    obtain ⟨enough, h⟩ := depth?_cons_eq_some h
    obtain ⟨vs, hwf, hlen, hlist⟩ := exists_trees_step wf enough
    obtain ⟨ws, hwf', hlen', hlist'⟩ := ih hwf (by rw [hlen]; exact h)
    exact ⟨ws, hwf', hlen', by rw [hlist', hlist, List.append_assoc]; rfl⟩

/-- **A sequence leaves `m` values exactly if it lists `m` trees.** -/
theorem depth?_eq_some_iff {ts : List Token} {m : Nat} :
    depth? 0 ts = some m ↔ ∃ us, AllWellFormed us ∧ us.length = m ∧ postorderAll us = ts := by
  constructor
  · intro h
    exact @exists_trees ts [] m trivial h
  · rintro ⟨us, wf, rfl, rfl⟩
    rw [depth?_postorderAll us 0 wf, Nat.zero_add]

/-- A sequence leaves one value exactly if it is the listing of a tree. -/
theorem depth?_eq_one_iff {ts : List Token} :
    depth? 0 ts = some 1 ↔ ∃ t : Tree, t.WellFormed ∧ t.postorder = ts := by
  rw [depth?_eq_some_iff]
  constructor
  · rintro ⟨us, wf, hlen, rfl⟩
    match us, hlen with
    | [t], _ => exact ⟨t, wf.1, (postorderAll_singleton t).symm⟩
  · rintro ⟨t, wf, rfl⟩
    exact ⟨[t], ⟨wf, trivial⟩, rfl, postorderAll_singleton t⟩

end Tree

/-! ## Readings -/

namespace Interpretation

variable {α : Type u} {I : Interpretation α}

theorem step_depth {stack next : List α} {t : Token} (h : I.step stack t = .ok next) :
    t.arity ≤ stack.length ∧ next.length = stack.length - t.arity + 1 := by
  cases t with
  | number x => cases h; exact ⟨Nat.zero_le _, rfl⟩
  | name n =>
    simp only [step] at h
    cases hn : I.name n with
    | error e => rw [hn] at h; cases h
    | ok v => rw [hn] at h; cases h; exact ⟨Nat.zero_le _, rfl⟩
  | operation op =>
    by_cases short : stack.length < op.arity
    · rw [I.step_short short] at h; cases h
    have enough := Nat.le_of_not_lt short
    refine ⟨enough, ?_⟩
    cases index : op.count.isIndex with
    | false => simp [step, short, index] at h
    | true =>
      rw [I.step_operation enough index] at h
      cases ha : I.apply op (stack.take op.arity).reverse with
      | error e => rw [ha] at h; cases h
      | ok v =>
        rw [ha] at h
        cases h
        rw [List.length_cons, List.length_drop]
        rfl

/-- **A sequence that is read to its end leaves as many values as can be known beforehand.** -/
theorem steps_depth {stack last : List α} {ts : List Token} (h : I.steps stack ts = .ok last) :
    depth? stack.length ts = some last.length := by
  induction ts generalizing stack with
  | nil => cases h; rfl
  | cons t ts ih =>
    simp only [steps] at h
    cases hs : I.step stack t with
    | error e => rw [hs] at h; cases h
    | ok next =>
      rw [hs] at h
      obtain ⟨ha, hn⟩ := step_depth hs
      rw [depth?_cons ts ha, ← hn]
      exact ih h

theorem steps_names {stack last : List α} {ts : List Token} (h : I.steps stack ts = .ok last) :
    ∀ n, .name n ∈ ts → ∃ v, I.name n = .ok v := by
  intro n hn
  obtain ⟨before, after, rfl⟩ := List.append_of_mem hn
  rw [steps_append] at h
  cases hb : I.steps stack before with
  | error e => rw [hb] at h; cases h
  | ok mid =>
    simp only [hb, steps, step] at h
    cases hv : I.name n with
    | error e => rw [hv] at h; cases h
    | ok v => exact ⟨v, rfl⟩

/-- Where all tokens find their values, no operation stops the reading for want of them. -/
theorem steps_error_of_depth {stack : List α} {ts : List Token} {m : Nat} {e : EvalError}
    (hd : depth? stack.length ts = some m) (h : I.steps stack ts = .error e) :
    (∃ n, .name n ∈ ts ∧ I.name n = .error e) ∨
      ∃ a ∈ I.applications stack ts,
        a.1.count.isIndex = false ∧ e = .notSlice ∨ I.apply a.1 a.2 = .error e := by
  rcases steps_error_cases h with name | ⟨before, op, after, mid, rfl, hb, short, -⟩ | applied
  · exact .inl name
  · rw [depth?_append _ (steps_depth hb)] at hd
    have enough : op.arity ≤ mid.length := (depth?_cons_eq_some hd).1
    omega
  · exact .inr applied

end Interpretation
end ReversePolish

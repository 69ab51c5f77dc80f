/-
Reading as parsing. Where every number, name and application has a meaning, a
sequence is read to a value exactly if it lists a tree. It lists no other tree
(`Tree.postorder_inj`), and the value is the meaning of the tree by recursion.
Any other sequence is refused for the first operation that finds too few
values, or for the number of values that are left at its end. Both numbers are
sums over the tokens, which `netDepth` gives without reading them.

All this holds exactly if no operation that the reading comes to has its count
given as a number with a point, since that cuts no arguments off a stack
(`Meanings.parses_iff`).
-/
import ReversePolish.Proofs.Listing

namespace ReversePolish

/-! ## One tree for one listing -/

namespace Tree

/-- No other tree ends a sequence that this one ends. -/
def EndsUniquely (t : Tree) : Prop :=
  ∀ (t' : Tree) (before before' : List Token), t.WellFormed → t'.WellFormed →
    before ++ t.postorder = before' ++ t'.postorder → before = before' ∧ t = t'

theorem postorderAll_unique {ts : List Tree} (unique : ∀ t ∈ ts, t.EndsUniquely) :
    ∀ (ts' : List Tree) (before before' : List Token), ts.length = ts'.length →
      AllWellFormed ts → AllWellFormed ts' →
      before ++ postorderAll ts = before' ++ postorderAll ts' → before = before' ∧ ts = ts' := by
  induction ts with
  | nil =>
    rintro (_ | ⟨t', ts'⟩) before before' len - - same
    · simpa [postorderAll] using same
    · cases len
  | cons t ts ih =>
    rintro (_ | ⟨t', ts'⟩) before before' len wf wf' same
    · cases len
    · obtain ⟨first, later⟩ := List.forall_mem_cons.mp unique
      simp only [postorderAll, ← List.append_assoc] at same
      obtain ⟨front, rfl⟩ := ih later ts' _ _ (Nat.succ.inj len) wf.2 wf'.2 same
      obtain ⟨rfl, rfl⟩ := first t' before before' wf.1 wf'.1 front
      exact ⟨rfl, rfl⟩

theorem endsUniquely (t : Tree) : t.EndsUniquely := by
  induction t using inductionOn with
  | number x =>
    rintro (y | n | ⟨op, args⟩) before before' - - same
    · simpa [postorder] using same
    · simp [postorder] at same
    · simp [postorder, ← List.append_assoc] at same
  | name n =>
    rintro (y | m | ⟨op, args⟩) before before' - - same
    · simp [postorder] at same
    · simpa [postorder] using same
    · simp [postorder, ← List.append_assoc] at same
  | node op args unique =>
    rintro (y | n | ⟨op', args'⟩) before before' wf wf' same
    · simp [postorder, ← List.append_assoc] at same
    · simp [postorder, ← List.append_assoc] at same
    · simp only [postorder, ← List.append_assoc, List.append_singleton_inj,
        Token.operation.injEq] at same
      obtain ⟨arguments, rfl⟩ := same
      have len : args.length = args'.length := wf.1.trans wf'.1.symm
      obtain ⟨rfl, rfl⟩ := postorderAll_unique unique args' before before' len wf.2 wf'.2 arguments
      exact ⟨rfl, rfl⟩

/-- **A sequence lists at most one tree.** -/
theorem postorder_inj {t t' : Tree} (wf : t.WellFormed) (wf' : t'.WellFormed)
    (same : t.postorder = t'.postorder) : t = t' :=
  (t.endsUniquely t' [] [] wf wf' same).2

end Tree

/-! ## Meanings by recursion -/

/-- Meanings in a type of values for every number, name and application. -/
structure Meanings (α : Type u) where
  number : Float → α
  name : String → α
  operator : Operator → List α → α
  function : Function → List α → α

namespace Meanings

variable {α : Type u} (M : Meanings α)

def apply : Operation → List α → α
  | .operator o, args => M.operator o args
  | .function f, args => M.function f args

def interpretation : Interpretation α where
  number := M.number
  name n := .ok (M.name n)
  apply op args := .ok (M.apply op args)

theorem totalOn (ts : List Token) : M.interpretation.TotalOn ts :=
  ⟨fun n _ => ⟨M.name n, rfl⟩, fun op _ args _ => ⟨M.apply op args, rfl⟩⟩

end Meanings

namespace Tree

variable {α : Type u} (M : Meanings α)

mutual

/-- The meaning of a tree: that of its operation for the meanings of its arguments, which stand in
their order from left to right. -/
def meaning : Tree → α
  | .number x => M.number x
  | .name n => M.name n
  | .node op args => M.apply op (meaningAll args)

def meaningAll : List Tree → List α
  | [] => []
  | t :: rest => t.meaning :: meaningAll rest

end

mutual

theorem value_meanings : ∀ t : Tree, t.value M.interpretation = .ok (t.meaning M)
  | .number _ => rfl
  | .name _ => rfl
  | .node op args => by
    rw [value, valueAll_meanings args, meaning]
    rfl

theorem valueAll_meanings : ∀ ts : List Tree,
    valueAll M.interpretation ts = .ok (meaningAll M ts)
  | [] => rfl
  | t :: rest => by rw [valueAll, value_meanings t, valueAll_meanings rest, meaningAll]

end

end Tree

/-! ## How a reading ends -/

namespace Interpretation

variable {α : Type u} {I : Interpretation α} {stack : List α} {ts : List Token}

theorem steps_of_depth {m : Nat} (total : I.TotalOn ts)
    (index : ∀ a ∈ I.applications stack ts, a.1.count.isIndex = true)
    (hd : depth? stack.length ts = some m) :
    ∃ last, I.steps stack ts = .ok last ∧ last.length = m := by
  cases hs : I.steps stack ts with
  | ok last =>
    have left := steps_depth hs
    rw [hd] at left
    exact ⟨last, rfl, (Option.some.inj left).symm⟩
  | error e =>
    rcases steps_error_of_depth hd hs with ⟨n, hn, unnamed⟩ | ⟨a, ha, ⟨noIndex, -⟩ | failed⟩
    · obtain ⟨v, hv⟩ := total.name n hn
      rw [hv] at unnamed; cases unnamed
    · rw [index a ha] at noIndex; cases noIndex
    · obtain ⟨hop, hargs⟩ := mem_applications ha
      obtain ⟨v, hv⟩ := total.apply a.1 hop a.2 hargs
      rw [hv] at failed; cases failed

theorem steps_notSlice
    (h : ∃ a ∈ I.applications stack ts, a.1.count.isIndex = false) :
    I.steps stack ts = .error .notSlice := by
  induction ts generalizing stack with
  | nil => simp [applications] at h
  | cons t ts ih =>
    simp only [applications, List.mem_append, Option.mem_toList] at h
    obtain ⟨a, asked | later, noIndex⟩ := h
    · cases t with
      | number x => cases asked
      | name n => cases asked
      | operation op =>
        by_cases enough : op.arity ≤ stack.length
        · rw [Token.application?_operation enough] at asked
          cases asked
          simp only [steps, step, Nat.not_lt.mpr enough, if_false, noIndex, Bool.not_false, if_true]
        · rw [Token.application?_short (Nat.lt_of_not_le enough)] at asked; cases asked
    · cases hs : I.step stack t with
      | error e => rw [hs] at later; cases later
      | ok next =>
        rw [hs] at later
        rw [steps, hs]
        exact ih ⟨a, later, noIndex⟩

end Interpretation

/-! ## The parser -/

namespace Meanings

variable {α : Type u}

/-- The sequence is read by the meanings as postfix notation is to be read. -/
structure Parses (M : Meanings α) (ts : List Token) : Prop where
  /-- A value is found exactly if the sequence lists a tree, and it is the meaning of that. -/
  value : ∀ v, M.interpretation.fold ts = .ok v ↔
    ∃ t : Tree, t.WellFormed ∧ t.postorder = ts ∧ t.meaning M = v
  /-- If not all tokens find their values the first that does not is named, with the number of
  values that it takes and the number of those before it. -/
  short : ¬ Fits ts → ∃ before op after, ∃ available : Nat,
    ts = before ++ .operation op :: after ∧ Fits before ∧ (available : Int) = netDepth before ∧
      available < op.arity ∧
      M.interpretation.fold ts = .error (.arity op.kind op.name op.count available)
  /-- If all do, the number of values that are left is named, which is not one: nothing is left of
  no tokens, and at least two values of any others. -/
  malformed : Fits ts → (¬ ∃ t : Tree, t.WellFormed ∧ t.postorder = ts) →
    ∃ remaining : Nat, (remaining : Int) = netDepth ts ∧
      M.interpretation.fold ts = .error (.malformed remaining) ∧
      (remaining = 0 ↔ ts = []) ∧ (ts ≠ [] → 2 ≤ remaining)

variable {M : Meanings α} {ts : List Token}

theorem exists_steps
    (index : ∀ a ∈ M.interpretation.applications [] ts, a.1.count.isIndex = true) {m : Nat}
    (hd : depth? 0 ts = some m) :
    ∃ last, M.interpretation.steps [] ts = .ok last ∧ last.length = m :=
  Interpretation.steps_of_depth (M.totalOn ts) index hd

theorem fold_of_listing
    (index : ∀ a ∈ M.interpretation.applications [] ts, a.1.count.isIndex = true) {t : Tree}
    (wf : t.WellFormed) (listed : t.postorder = ts) :
    M.interpretation.fold ts = .ok (t.meaning M) := by
  have one : depth? 0 ts = some 1 := Tree.depth?_eq_one_iff.mpr ⟨t, wf, listed⟩
  obtain ⟨last, steps, -⟩ := exists_steps index one
  exact (Tree.fold_eq_ok_iff (M.totalOn ts)).mpr
    ⟨fun op hop => Tree.isIndex_of_steps steps hop, t, wf, listed, t.value_meanings M⟩

/-- A sequence of which an operation finds too few values is refused for the first that does. -/
theorem fold_of_not_fits
    (index : ∀ a ∈ M.interpretation.applications [] ts, a.1.count.isIndex = true)
    (h : ¬ Fits ts) : ∃ before op after, ∃ available : Nat,
      ts = before ++ .operation op :: after ∧ Fits before ∧
        (available : Int) = netDepth before ∧ available < op.arity ∧
        M.interpretation.fold ts = .error (.arity op.kind op.name op.count available) := by
  obtain ⟨before, op, after, d, rfl, hd, short⟩ := depth?_eq_none (not_fits_iff.mp h)
  have sum := depth?_eq_netDepth hd
  obtain ⟨mid, steps, hlen⟩ := exists_steps
    (fun a ha => index a (Interpretation.mem_applications_append _ ha)) hd
  refine ⟨before, op, after, d, rfl, fits_iff.mpr ⟨d, hd⟩, by omega, short, ?_⟩
  rw [Interpretation.fold, Interpretation.steps_append, steps]
  simp only [Interpretation.steps]
  rw [Interpretation.step_short _ (by omega), hlen]
  rfl

/-- A sequence that fits and does not leave one value is refused for the number that it leaves. -/
theorem fold_of_depth
    (index : ∀ a ∈ M.interpretation.applications [] ts, a.1.count.isIndex = true) {m : Nat}
    (hd : depth? 0 ts = some m) (other : m ≠ 1) :
    M.interpretation.fold ts = .error (.malformed m) := by
  obtain ⟨last, steps, rfl⟩ := exists_steps index hd
  rw [Interpretation.fold, steps]
  exact Interpretation.result_of_length other

theorem parses_of_index
    (index : ∀ a ∈ M.interpretation.applications [] ts, a.1.count.isIndex = true) :
    M.Parses ts where
  value v := by
    constructor
    · intro h
      obtain ⟨-, t, wf, listed, hv⟩ := (Tree.fold_eq_ok_iff (M.totalOn ts)).mp h
      rw [t.value_meanings M] at hv
      exact ⟨t, wf, listed, Except.ok.inj hv⟩
    · rintro ⟨t, wf, listed, rfl⟩
      exact fold_of_listing index wf listed
  short := fold_of_not_fits index
  malformed := by
    intro fits unlisted
    obtain ⟨m, hd⟩ := fits_iff.mp fits
    have sum := depth?_eq_netDepth hd
    have other : m ≠ 1 := by
      rintro rfl
      exact unlisted (Tree.depth?_eq_one_iff.mp hd)
    have left (some : ts ≠ []) : 0 < m := depth?_pos (.inr some) hd
    refine ⟨m, by omega, fold_of_depth index hd other, ⟨fun none => ?_, ?_⟩, fun some => ?_⟩
    · exact Classical.byContradiction fun some => by have := left some; omega
    · rintro rfl
      cases hd
      rfl
    · have := left some; omega

theorem Parses.ne_notSlice (h : M.Parses ts) : M.interpretation.fold ts ≠ .error .notSlice := by
  intro stopped
  by_cases fits : Fits ts
  · by_cases listed : ∃ t : Tree, t.WellFormed ∧ t.postorder = ts
    · obtain ⟨t, wf, listed⟩ := listed
      have found := (h.value _).mpr ⟨t, wf, listed, rfl⟩
      rw [stopped] at found; cases found
    · obtain ⟨remaining, -, left, -⟩ := h.malformed fits listed
      rw [stopped] at left; cases left
  · obtain ⟨before, op, after, available, -, -, -, -, short⟩ := h.short fits
    rw [stopped] at short; cases short

/-- **Reading is parsing.** No sequence lists two trees; and a sequence is read to the meaning of
the tree that it lists, or refused for the first operation that finds too few values, or else for
the number of values that are left, exactly if the reading comes to no operation whose count was
given as a number with a point. -/
theorem parses_iff (M : Meanings α) (ts : List Token) :
    (∀ t t' : Tree, t.WellFormed → t'.WellFormed → t.postorder = ts → t'.postorder = ts →
      t = t') ∧
    (M.Parses ts ↔
      ∀ a ∈ M.interpretation.applications [] ts, a.1.count.isIndex = true) := by
  refine ⟨fun t t' wf wf' listed listed' => Tree.postorder_inj wf wf' (listed.trans listed'.symm),
    fun parses a ha => ?_, parses_of_index⟩
  refine eq_true_of_ne_false fun noIndex => parses.ne_notSlice ?_
  rw [Interpretation.fold, Interpretation.steps_notSlice ⟨a, ha, noIndex⟩]

/-- The texts of tokens as meanings. -/
def ofTexts : Meanings String where
  number := Rendering.number
  name n := n
  operator o := Rendering.application (.operator o)
  function f := Rendering.application (.function f)

theorem rendering_eq (ts : List Token) : rendering ts = ofTexts.interpretation.fold ts := by
  have same : Rendering.interpretation = ofTexts.interpretation := by
    rw [Rendering.interpretation, interpretation]
    congr 1
    funext op args
    cases op <;> rfl
  rw [rendering, same]

theorem parses_iff_blended :
    (∀ a ∈ ofTexts.interpretation.applications [] Expression.blended,
        a.1.count.isIndex = true) ∧
      rendering Expression.blended = .ok (Expression.blendedTree.meaning ofTexts) ∧
      ∀ t : Tree, t.WellFormed → t.postorder = Expression.blended → t = Expression.blendedTree := by
  have index : ∀ a ∈ ofTexts.interpretation.applications [] Expression.blended,
      a.1.count.isIndex = true := by
    intro a ha
    rcases Expression.operation_mem_blended (Interpretation.mem_applications ha).1 with h | h | h
    all_goals rw [h]; rfl
  have wf := Expression.wellFormed_blendedTree
  obtain ⟨unique, parses⟩ := parses_iff ofTexts Expression.blended
  refine ⟨index, ?_, fun t wf' listed => unique t Expression.blendedTree wf' wf listed rfl⟩
  rw [rendering_eq]
  exact ((parses.mpr index).value _).mpr ⟨Expression.blendedTree, wf, rfl, rfl⟩

theorem binary_pointed : (Count.pointed 2).toNat = 1 ∨ (Count.pointed 2).toNat = 2 := .inr rfl

/-- An operator whose two operands were given as a number with a point. -/
def pointedOperator : Operation :=
  .operator (.defined ⟨3, "<>", .pointed 2, .truth true, .whole 500, some Kernel.sum,
    binary_pointed⟩)

/-- A tree of that operator is listed, and its listing has no text. -/
theorem not_parses_pointed :
    (Tree.node pointedOperator [.number 1.0, .number 2.0]).WellFormed ∧
      rendering (Tree.node pointedOperator [.number 1.0, .number 2.0]).postorder =
        .error .notSlice ∧
      ¬ ofTexts.Parses (Tree.node pointedOperator [.number 1.0, .number 2.0]).postorder := by
  have wf : (Tree.node pointedOperator [.number 1.0, .number 2.0]).WellFormed :=
    ⟨rfl, trivial, trivial, trivial⟩
  refine ⟨wf, rfl, fun parses => ?_⟩
  have found := (parses.value _).mpr ⟨_, wf, rfl, rfl⟩
  cases found

end Meanings
end ReversePolish

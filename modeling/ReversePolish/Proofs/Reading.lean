/-
What a reading of a token sequence does whatever tokens mean: which
applications it makes, and how it ends. Two interpretations that give every
name and every application that they come to a meaning end alike
(`fold_alike`): both with a value, or both with the same error. Where a map
takes the values of one to those of the other, it takes the result as well
(`LeavesMap.fold_eq`).
-/
import ReversePolish.Fold

namespace ReversePolish

/-- The application that a token asks for, if it is an operation that finds enough values: the
operation with the values that it takes, in the order in which they were pushed. -/
def Token.application? {α : Type u} (stack : List α) : Token → Option (Operation × List α)
  | .operation op =>
    if op.arity ≤ stack.length then some (op, (stack.take op.arity).reverse) else none
  | _ => none

theorem Token.application?_operation {α : Type u} {stack : List α} {op : Operation}
    (enough : op.arity ≤ stack.length) :
    (Token.operation op).application? stack = some (op, (stack.take op.arity).reverse) :=
  if_pos enough

theorem Token.application?_short {α : Type u} {stack : List α} {op : Operation}
    (short : stack.length < op.arity) : (Token.operation op).application? stack = none :=
  if_neg (Nat.not_le.mpr short)

def Token.operation? : Token → Option Operation
  | .operation op => some op
  | _ => none

namespace Interpretation

variable {α : Type u} {β : Type v}

/-- The applications that a reading comes to, in order, up to and with the one that stops it. -/
def applications (I : Interpretation α) : List α → List Token → List (Operation × List α)
  | _, [] => []
  | stack, t :: rest =>
    (t.application? stack).toList ++ match I.step stack t with
      | .ok stack => I.applications stack rest
      | .error _ => []

theorem step_operation (I : Interpretation α) {stack : List α} {op : Operation}
    (enough : op.arity ≤ stack.length) (index : op.count.isIndex = true) :
    I.step stack (.operation op) =
      (I.apply op (stack.take op.arity).reverse).map (· :: stack.drop op.arity) := by
  simp [step, Nat.not_lt.mpr enough, index]

theorem step_short (I : Interpretation α) {stack : List α} {op : Operation}
    (short : stack.length < op.arity) :
    I.step stack (.operation op) = .error (.tooFew op stack.length) := by
  simp [step, short]

/-- A sequence is read in parts, and so are its applications found. -/
theorem applications_append (I : Interpretation α) (stack : List α) (ts us : List Token) :
    I.applications stack (ts ++ us) = I.applications stack ts ++ match I.steps stack ts with
      | .ok stack => I.applications stack us
      | .error _ => [] := by
  induction ts generalizing stack with
  | nil => rfl
  | cons t ts ih =>
    simp only [List.cons_append, applications, steps, List.append_assoc]
    cases I.step stack t with
    | ok stack => exact congrArg _ (ih stack)
    | error e => rfl

theorem mem_applications_append {I : Interpretation α} {stack : List α} {ts : List Token}
    (us : List Token) {a : Operation × List α} (h : a ∈ I.applications stack ts) :
    a ∈ I.applications stack (ts ++ us) := by
  rw [applications_append]
  exact List.mem_append_left _ h

/-- A reading that does not stop makes one application for every operation, in order. -/
theorem applications_operations (I : Interpretation α) {stack last : List α} {ts : List Token}
    (h : I.steps stack ts = .ok last) :
    (I.applications stack ts).map Prod.fst = ts.filterMap Token.operation? := by
  induction ts generalizing stack with
  | nil => rfl
  | cons t ts ih =>
    simp only [steps] at h
    cases hs : I.step stack t with
    | error e => rw [hs] at h; cases h
    | ok next =>
      rw [hs] at h
      simp only [applications, hs, List.map_append, ih h]
      cases t with
      | number x => rfl
      | name n => rfl
      | operation op =>
        by_cases enough : op.arity ≤ stack.length
        · simp [Token.application?_operation enough, Token.operation?]
        · rw [I.step_short (Nat.lt_of_not_le enough)] at hs; cases hs

theorem mem_applications {I : Interpretation α} {stack : List α} {ts : List Token}
    {a : Operation × List α} (h : a ∈ I.applications stack ts) :
    .operation a.1 ∈ ts ∧ a.2.length = a.1.arity := by
  induction ts generalizing stack with
  | nil => simp [applications] at h
  | cons t ts ih =>
    simp only [applications, List.mem_append, Option.mem_toList] at h
    rcases h with h | h
    · cases t with
      | number x => cases h
      | name n => cases h
      | operation op =>
        by_cases enough : op.arity ≤ stack.length
        · rw [Token.application?_operation enough] at h
          cases h
          exact ⟨List.mem_cons_self .., by simp [enough]⟩
        · rw [Token.application?_short (Nat.lt_of_not_le enough)] at h; cases h
    · cases hs : I.step stack t with
      | error e => rw [hs] at h; cases h
      | ok next =>
        rw [hs] at h
        exact ⟨List.mem_cons_of_mem t (ih h).1, (ih h).2⟩

theorem steps_of_fold {I : Interpretation α} {ts : List Token} {v : α} (h : I.fold ts = .ok v) :
    I.steps [] ts = .ok [v] := by
  rw [fold] at h
  cases hs : I.steps [] ts with
  | error e => rw [hs] at h; cases h
  | ok last =>
    rw [hs] at h
    match last, h with
    | [_], h => cases h; rfl

theorem result_of_length {last : List α} (h : last.length ≠ 1) :
    result last = .error (.malformed last.length) := by
  rcases last with _ | ⟨v, _ | ⟨w, rest⟩⟩
  · rfl
  · exact absurd rfl h
  · rfl

/-- Where no value is found, the reading stops at the error, or leaves another number of values. -/
theorem steps_of_fold_error {I : Interpretation α} {ts : List Token} {e : EvalError}
    (h : I.fold ts = .error e) :
    I.steps [] ts = .error e ∨ ∃ remaining, e = .malformed remaining := by
  rw [fold] at h
  cases hs : I.steps [] ts with
  | error e' => rw [hs] at h; cases h; exact .inl rfl
  | ok last =>
    rw [hs] at h
    rcases last with _ | ⟨v, _ | ⟨w, rest⟩⟩ <;> cases h
    · exact .inr ⟨_, rfl⟩
    · exact .inr ⟨_, rfl⟩

/-! ## How a reading fails -/

/-- Why one token stops a reading: its name has no meaning, it finds too few values, its count
does not cut them off, or its application fails. -/
theorem step_error {I : Interpretation α} {stack : List α} {t : Token} {e : EvalError}
    (h : I.step stack t = .error e) :
    (∃ n, t = .name n ∧ I.name n = .error e) ∨
      (∃ op, t = .operation op ∧ stack.length < op.arity ∧ e = .tooFew op stack.length) ∨
      ∃ a ∈ t.application? stack,
        a.1.count.isIndex = false ∧ e = .notSlice ∨ I.apply a.1 a.2 = .error e := by
  cases t with
  | number x => cases h
  | name n =>
    refine .inl ⟨n, rfl, ?_⟩
    simp only [step] at h
    cases hn : I.name n with
    | ok v => rw [hn] at h; cases h
    | error e' => rw [hn] at h; cases h; rfl
  | operation op =>
    by_cases enough : op.arity ≤ stack.length
    · refine .inr (.inr ⟨_, Token.application?_operation enough, ?_⟩)
      cases index : op.count.isIndex with
      | false =>
        simp only [step, Nat.not_lt.mpr enough, index] at h
        cases h
        exact .inl ⟨rfl, rfl⟩
      | true =>
        rw [I.step_operation enough index] at h
        cases ha : I.apply op (stack.take op.arity).reverse with
        | ok v => rw [ha] at h; cases h
        | error e' => rw [ha] at h; cases h; exact .inr rfl
    · have short := Nat.lt_of_not_le enough
      rw [I.step_short short] at h
      cases h
      exact .inr (.inl ⟨op, rfl, short, rfl⟩)

theorem steps_error {I : Interpretation α} {stack : List α} {ts : List Token} {e : EvalError}
    (h : I.steps stack ts = .error e) :
    ∃ before t after mid, ts = before ++ t :: after ∧ I.steps stack before = .ok mid ∧
      I.step mid t = .error e := by
  induction ts generalizing stack with
  | nil => cases h
  | cons t ts ih =>
    simp only [steps] at h
    cases hs : I.step stack t with
    | error e' => rw [hs] at h; cases h; exact ⟨[], t, ts, stack, rfl, rfl, hs⟩
    | ok next =>
      rw [hs] at h
      obtain ⟨before, u, after, mid, rfl, hb, hu⟩ := ih h
      exact ⟨t :: before, u, after, mid, rfl, by rw [steps, hs]; exact hb, hu⟩

theorem mem_applications_of_step {I : Interpretation α} {stack mid : List α} {before : List Token}
    {t : Token} (after : List Token) (hb : I.steps stack before = .ok mid)
    {a : Operation × List α} (ha : a ∈ t.application? mid) :
    a ∈ I.applications stack (before ++ t :: after) := by
  rw [applications_append, hb]
  simp [applications, Option.mem_def.mp ha]

/-- **Why a reading fails**: a name has no meaning, an operation finds fewer values than it takes,
or something that the reading comes to cannot be applied. -/
theorem steps_error_cases {I : Interpretation α} {stack : List α} {ts : List Token}
    {e : EvalError} (h : I.steps stack ts = .error e) :
    (∃ n, .name n ∈ ts ∧ I.name n = .error e) ∨
      (∃ before op after mid, ts = before ++ .operation op :: after ∧
        I.steps stack before = .ok mid ∧ mid.length < op.arity ∧ e = .tooFew op mid.length) ∨
      ∃ a ∈ I.applications stack ts,
        a.1.count.isIndex = false ∧ e = .notSlice ∨ I.apply a.1 a.2 = .error e := by
  obtain ⟨before, t, after, mid, rfl, hb, ht⟩ := steps_error h
  rcases step_error ht with ⟨n, rfl, hn⟩ | ⟨op, rfl, short, rfl⟩ | ⟨a, ha, cause⟩
  · exact .inl ⟨n, List.mem_append_right before (List.mem_cons_self ..), hn⟩
  · exact .inr (.inl ⟨before, op, after, mid, rfl, hb, short, rfl⟩)
  · exact .inr (.inr ⟨a, mem_applications_of_step after hb ha, cause⟩)

/-! ## Readings in which everything has a meaning -/

/-- Every name and every application in a sequence has a meaning. -/
structure TotalOn (I : Interpretation α) (ts : List Token) : Prop where
  name : ∀ n, .name n ∈ ts → ∃ v, I.name n = .ok v
  apply : ∀ op, .operation op ∈ ts → ∀ args : List α, args.length = op.arity →
    ∃ v, I.apply op args = .ok v

/-- Every name in a sequence has a meaning, and so has every application that the reading comes
to. -/
structure MeaningfulFrom (I : Interpretation α) (stack : List α) (ts : List Token) : Prop where
  name : ∀ n, .name n ∈ ts → ∃ v, I.name n = .ok v
  apply : ∀ a ∈ I.applications stack ts, ∃ v, I.apply a.1 a.2 = .ok v

theorem TotalOn.meaningfulFrom {I : Interpretation α} {ts : List Token} (h : I.TotalOn ts)
    (stack : List α) : I.MeaningfulFrom stack ts := by
  refine ⟨h.name, fun a ha => ?_⟩
  obtain ⟨hop, length⟩ := mem_applications ha
  exact h.apply a.1 hop a.2 length

namespace MeaningfulFrom

variable {I : Interpretation α} {stack : List α} {t : Token} {ts : List Token}

theorem head (h : I.MeaningfulFrom stack (t :: ts)) {a : Operation × List α}
    (ha : a ∈ t.application? stack) : ∃ v, I.apply a.1 a.2 = .ok v :=
  h.apply a (List.mem_append_left _ (Option.mem_toList.mpr ha))

theorem next (h : I.MeaningfulFrom stack (t :: ts)) {stack' : List α}
    (hs : I.step stack t = .ok stack') : I.MeaningfulFrom stack' ts := by
  refine ⟨fun n hn => h.name n (List.mem_cons_of_mem t hn), fun a ha => h.apply a ?_⟩
  rw [applications, hs]
  exact List.mem_append_right _ ha

end MeaningfulFrom

/-- On stacks of one height, two readings in which everything has a meaning take one step to stacks
of one height, or stop with one error. -/
theorem step_alike {I : Interpretation α} {J : Interpretation β} {t : Token} {ts : List Token}
    {stack : List α} {other : List β} (hI : I.MeaningfulFrom stack (t :: ts))
    (hJ : J.MeaningfulFrom other (t :: ts)) (height : stack.length = other.length) :
    (I.step stack t).map List.length = (J.step other t).map List.length := by
  cases t with
  | number x => simp [step, Except.map, height]
  | name n =>
    obtain ⟨v, hv⟩ := hI.name n (List.mem_cons_self ..)
    obtain ⟨w, hw⟩ := hJ.name n (List.mem_cons_self ..)
    simp [step, hv, hw, Except.map, height]
  | operation op =>
    by_cases enough : op.arity ≤ stack.length
    · cases index : op.count.isIndex with
      | false =>
        simp [step, index, height ▸ Nat.not_lt.mpr enough, Nat.not_lt.mpr enough, Except.map]
      | true =>
        obtain ⟨v, hv⟩ := hI.head (Token.application?_operation enough)
        obtain ⟨w, hw⟩ := hJ.head (Token.application?_operation (height ▸ enough))
        rw [I.step_operation enough index, J.step_operation (height ▸ enough) index, hv, hw]
        simp [Except.map, height]
    · have short := Nat.lt_of_not_le enough
      rw [I.step_short short, J.step_short (height ▸ short), height]
      rfl

theorem steps_alike {I : Interpretation α} {J : Interpretation β} {ts : List Token}
    {stack : List α} {other : List β} (hI : I.MeaningfulFrom stack ts)
    (hJ : J.MeaningfulFrom other ts) (height : stack.length = other.length) :
    (I.steps stack ts).map List.length = (J.steps other ts).map List.length := by
  induction ts generalizing stack other with
  | nil => simp [steps, Except.map, height]
  | cons t ts ih =>
    have step := step_alike hI hJ height
    simp only [steps]
    cases hs : I.step stack t with
    | error e =>
      cases ho : J.step other t with
      | error e' => rw [hs, ho] at step; exact step
      | ok next' => rw [hs, ho] at step; cases step
    | ok next =>
      cases ho : J.step other t with
      | error e' => rw [hs, ho] at step; cases step
      | ok next' =>
        rw [hs, ho] at step
        exact ih (hI.next hs) (hJ.next ho) (Except.ok.inj step)

/-- **Two readings in which everything has a meaning end alike**: both with a value, or both with
the same error. -/
theorem fold_alike {I : Interpretation α} {J : Interpretation β} {ts : List Token}
    (hI : I.MeaningfulFrom [] ts) (hJ : J.MeaningfulFrom [] ts) :
    (∃ v w, I.fold ts = .ok v ∧ J.fold ts = .ok w) ∨
      ∃ e, I.fold ts = .error e ∧ J.fold ts = .error e := by
  have steps := steps_alike hI hJ (show ([] : List α).length = ([] : List β).length from rfl)
  simp only [fold]
  cases hs : I.steps [] ts with
  | error e =>
    cases ho : J.steps [] ts with
    | error e' => rw [hs, ho] at steps; cases steps; exact .inr ⟨e, rfl, rfl⟩
    | ok last' => rw [hs, ho] at steps; cases steps
  | ok last =>
    cases ho : J.steps [] ts with
    | error e' => rw [hs, ho] at steps; cases steps
    | ok last' =>
      rw [hs, ho] at steps
      have height := Except.ok.inj steps
      match last, last', height with
      | [v], [w], _ => exact .inl ⟨v, w, rfl, rfl⟩
      | [], [], _ => exact .inr ⟨.malformed 0, rfl, rfl⟩
      | _ :: _ :: rest, _ :: _ :: rest', height =>
        simp only [List.length_cons, Nat.add_right_cancel_iff] at height
        exact .inr ⟨.malformed (rest.length + 2), rfl, by simp [result, height]⟩

/-! ## A reading as the image of another -/

/-- What numbers and names mean to `J` is the image of what they mean to `I`. -/
structure LeavesMap (f : α → β) (I : Interpretation α) (J : Interpretation β) : Prop where
  number : ∀ x, f (I.number x) = J.number x
  name : ∀ n, (I.name n).map f = J.name n

namespace LeavesMap

variable {f : α → β} {I : Interpretation α} {J : Interpretation β}

theorem step_eq (leaves : LeavesMap f I J) {stack : List α} {t : Token}
    (apply : ∀ a ∈ t.application? stack, (I.apply a.1 a.2).map f = J.apply a.1 (a.2.map f)) :
    J.step (stack.map f) t = (I.step stack t).map (List.map f) := by
  cases t with
  | number x =>
    simp only [step, ← leaves.number x]
    rfl
  | name n =>
    simp only [step, ← leaves.name n]
    cases I.name n <;> rfl
  | operation op =>
    by_cases enough : op.arity ≤ stack.length
    · have applied := apply _ (Token.application?_operation enough)
      simp only [List.map_reverse, List.map_take] at applied
      simp only [step, List.length_map, Nat.not_lt.mpr enough, if_false, ← applied]
      cases op.count.isIndex with
      | false => rfl
      | true => cases I.apply op (stack.take op.arity).reverse <;> simp [Except.map]
    · have short := Nat.lt_of_not_le enough
      rw [I.step_short short, J.step_short (by rwa [List.length_map]), List.length_map]
      rfl

theorem steps_eq (leaves : LeavesMap f I J) {stack : List α} {ts : List Token}
    (apply : ∀ a ∈ I.applications stack ts, (I.apply a.1 a.2).map f = J.apply a.1 (a.2.map f)) :
    J.steps (stack.map f) ts = (I.steps stack ts).map (List.map f) := by
  induction ts generalizing stack with
  | nil => rfl
  | cons t ts ih =>
    simp only [applications, List.mem_append, Option.mem_toList] at apply
    have step := leaves.step_eq (t := t) fun a ha => apply a (.inl ha)
    simp only [steps, step]
    cases hs : I.step stack t with
    | error e => rfl
    | ok next => exact ih fun a ha => apply a (.inr (by rw [hs]; exact ha))

/-- **If every application that a reading comes to commutes with a map, so does the reading.** -/
theorem fold_eq (leaves : LeavesMap f I J) {ts : List Token}
    (apply : ∀ a ∈ I.applications [] ts, (I.apply a.1 a.2).map f = J.apply a.1 (a.2.map f)) :
    J.fold ts = (I.fold ts).map f := by
  have steps := leaves.steps_eq apply
  rw [List.map_nil] at steps
  simp only [fold, steps]
  cases I.steps [] ts with
  | error e => rfl
  | ok last => rcases last with _ | ⟨v, _ | ⟨w, rest⟩⟩ <;> simp [result, Except.map]

end LeavesMap

end Interpretation
end ReversePolish

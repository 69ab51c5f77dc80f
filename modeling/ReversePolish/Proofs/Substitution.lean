/-
Binding a variable and putting a sequence of its value in its place come to
the same (`evaluate_expand`), in sequences of any kind. What is read of a
sequence does not change when more values lie below (`steps_below`), so a
sequence that leaves one value can be read on any stack, and every token after
it finds what it would find after the name: the same number of values, and the
same ones.

An evaluation may be refused a buffer besides. It is so at the same
application, since those of the sequence in the place of the name have all
been served where its value was found.
-/
import ReversePolish.Proofs.Depth
import ReversePolish.Proofs.Refusal

namespace ReversePolish

/-! ## A sequence in the place of a name -/

/-- The token, or the sequence that stands in the place of a name. -/
def Token.expand (x : String) (us : List Token) : Token → List Token
  | .name n => if n = x then us else [.name n]
  | t => [t]

/-- The tokens with a sequence in the place of every occurrence of a name. -/
def expandAll (x : String) (us ts : List Token) : List Token := ts.flatMap (Token.expand x us)

@[simp] theorem Token.expand_self (x : String) (us : List Token) :
    (Token.name x).expand x us = us := if_pos rfl

theorem Token.expand_other {x : String} {t : Token} (other : t ≠ .name x) (us : List Token) :
    t.expand x us = [t] := by
  unfold expand
  split
  next n => exact if_neg fun h => other (congrArg Token.name h)
  next => rfl

/-! ## Reading above other values -/

namespace Interpretation

variable {α : Type u} {I : Interpretation α}

theorem step_below {stack next : List α} {t : Token} (below : List α)
    (h : I.step stack t = .ok next) :
    I.step (stack ++ below) t = .ok (next ++ below) ∧
      t.application? (stack ++ below) = t.application? stack := by
  cases t with
  | number x => cases h; exact ⟨rfl, rfl⟩
  | name n =>
    refine ⟨?_, rfl⟩
    simp only [step] at h ⊢
    cases hn : I.name n with
    | error e => rw [hn] at h; cases h
    | ok v => rw [hn] at h; cases h; rfl
  | operation op =>
    have enough : op.arity ≤ stack.length := (step_depth h).1
    have enough' : op.arity ≤ (stack ++ below).length := by
      rw [List.length_append]
      exact Nat.le_add_right_of_le enough
    have taken : (stack ++ below).take op.arity = stack.take op.arity :=
      List.take_append_of_le_length enough
    refine ⟨?_, by
      rw [Token.application?_operation enough', Token.application?_operation enough, taken]⟩
    cases index : op.count.isIndex with
    | false => simp [step, index, Nat.not_lt.mpr enough] at h
    | true =>
      rw [I.step_operation enough index] at h
      rw [I.step_operation enough' index, taken, List.drop_append_of_le_length enough]
      cases ha : I.apply op (stack.take op.arity).reverse with
      | error e => rw [ha] at h; cases h
      | ok v => rw [ha] at h; cases h; rfl

/-- **Nor do they to a sequence that is read to its end**, or to what it applies. -/
theorem steps_below {stack last : List α} {ts : List Token} (below : List α)
    (h : I.steps stack ts = .ok last) :
    I.steps (stack ++ below) ts = .ok (last ++ below) ∧
      I.applications (stack ++ below) ts = I.applications stack ts := by
  induction ts generalizing stack with
  | nil => cases h; exact ⟨rfl, rfl⟩
  | cons t ts ih =>
    simp only [steps, applications] at h ⊢
    cases hs : I.step stack t with
    | error e => rw [hs] at h; cases h
    | ok next =>
      rw [hs] at h
      obtain ⟨step, asked⟩ := step_below below hs
      obtain ⟨steps, applied⟩ := ih h
      rw [step, asked]
      exact ⟨steps, congrArg _ applied⟩

/-! ## Names with other meanings -/

/-- The same meanings, but for one name. -/
def withName (I : Interpretation α) (x : String) (v : α) : Interpretation α :=
  { I with name := fun n => if n = x then .ok v else I.name n }

theorem step_withName_self (x : String) (v : α) (stack : List α) :
    (I.withName x v).step stack (.name x) = .ok (v :: stack) := by
  simp [step, withName, Except.map]

theorem step_withName_other {x : String} {t : Token} (other : t ≠ .name x) (v : α)
    (stack : List α) : (I.withName x v).step stack t = I.step stack t := by
  cases t with
  | number y => rfl
  | name n =>
    have hne : n ≠ x := fun h => other (congrArg Token.name h)
    simp only [step, withName, if_neg hne]
  | operation op => rfl

theorem steps_expandAll {x : String} {us : List Token} {v : α} (leaves : I.steps [] us = .ok [v])
    (stack : List α) (ts : List Token) :
    I.steps stack (expandAll x us ts) = (I.withName x v).steps stack ts := by
  induction ts generalizing stack with
  | nil => rfl
  | cons t ts ih =>
    rw [expandAll, List.flatMap_cons, steps_append, steps]
    by_cases name : t = .name x
    · subst name
      have read : I.steps stack us = .ok (v :: stack) := (steps_below stack leaves).1
      rw [Token.expand_self, read, step_withName_self]
      exact ih (v :: stack)
    · rw [Token.expand_other name, steps, step_withName_other name]
      cases I.step stack t with
      | error e => rfl
      | ok next => exact ih next

theorem refusal?_expandAll {x : String} {us : List Token} {v : α} {size : Nat}
    (leaves : I.steps [] us = .ok [v])
    (served : ∀ a ∈ I.applications [] us, a.1.count.servedBy size = true)
    (stack : List α) (ts : List Token) :
    Run.refusal? size (I.applications stack (expandAll x us ts)) =
      Run.refusal? size ((I.withName x v).applications stack ts) := by
  induction ts generalizing stack with
  | nil => rfl
  | cons t ts ih =>
    rw [expandAll, List.flatMap_cons, applications_append, applications]
    by_cases name : t = .name x
    · subst name
      obtain ⟨read, applied⟩ := steps_below stack leaves
      simp only [List.nil_append, List.singleton_append] at read applied
      rw [Token.expand_self, read, applied, step_withName_self,
        (Run.refusal?_append_of_served served _).1]
      exact ih (v :: stack)
    · rw [Token.expand_other name, applications, steps, step_withName_other name]
      cases I.step stack t with
      | error e => simp
      | ok next =>
        simp only [applications, steps, List.append_nil, Run.refusal?_append]
        exact congrArg _ (ih next)

end Interpretation

theorem valuation_set (b : Bindings) (x : String) (v : Float) :
    valuation (b.set (.text x) v).value? = (valuation b.value?).withName x v := by
  have name (n : String) : (valuation (b.set (.text x) v).value?).name n =
      if n = x then .ok v else (valuation b.value?).name n := by
    by_cases h : n = x
    · subst h
      have self : (b.set (.text n) v).value? n = some v := b.find?_set_self (.text n) v
      simp [valuation, self]
    · have key : Key.text n ≠ (Name.text x).key := fun same => h (Key.text.inj same)
      have other : (b.set (.text x) v).value? n = b.value? n := b.find?_set_other key v
      simp [valuation, other, h]
  rw [Interpretation.withName, ← funext name]
  rfl

namespace Expression

/-- The other expression has the same values by name, and a pool of the same size. -/
structure SameGround (e other : Expression) : Prop where
  bindings : other.bindings = e.bindings
  size : other.pool.size = e.pool.size

/-- **Binding a variable is putting a sequence in its place.** Let a sequence have a value. Put in
the place of every occurrence of a variable in any other sequence, it makes that end as it does
where the variable is bound to the value: with the same value, or with the same error. What the
stacks and the buffers hold makes no difference. -/
theorem evaluate_expand {e part other : Expression} {x : String} {v : Float}
    (level level' level'' : Log.Level) (free : isReserved e.userNames (.text x) = false)
    (ground : e.SameGround part) (found : (part.evaluate level).2 = .ok v)
    (ground' : e.SameGround other) (expanded : other.tokens = expandAll x part.tokens e.tokens) :
    ∃ bound, e.bind (.text x) (.real v) = .ok bound ∧
      (other.evaluate level').2 = (bound.evaluate level'').2 := by
  refine ⟨{ e with bindings := e.bindings.set (.text x) v }, ?_, ?_⟩
  · exact if_neg (ne_true_of_eq_false free)
  · have served := allServed_of_evaluate found
    have leaves := steps_of_evaluate found
    rw [AllServed, reading, ground.bindings, ground.size] at served
    rw [reading, ground.bindings] at leaves
    have steps := Interpretation.steps_expandAll (x := x) leaves [] e.tokens
    have refusals := Interpretation.refusal?_expandAll (x := x) leaves served [] e.tokens
    rw [← valuation_set] at steps refusals
    unfold evaluate
    rw [(evaluate_eq ..).1, (evaluate_eq ..).1, ground'.bindings, ground'.size, expanded]
    simp only [Interpretation.fold]
    rw [← steps, ← refusals]

def shifted : List Token := [.name "pi", .number 2.0, .operation (.operator (.builtin .add))]

/-- A function of three arguments that finds a variable twice. -/
def doubled : List Token := [.name "x", .name "x", .operation blend]

theorem evaluate_expand_doubled :
    isReserved (unpooled doubled).userNames (.text "x") = false ∧
      ((unpooled shifted).evaluate .silent).2 = .ok (Elementary.pi + 2.0) ∧
      ∃ bound, (unpooled doubled).bind (.text "x") (.real (Elementary.pi + 2.0)) = .ok bound ∧
        (bound.evaluate .verbose).2 = .error (.arity .function "blend" (.whole 3) 2) := by
  have ground : (unpooled doubled).SameGround (unpooled shifted) := ⟨rfl, rfl⟩
  have ground' : (unpooled doubled).SameGround (unpooled (expandAll "x" shifted doubled)) :=
    ⟨rfl, rfl⟩
  obtain ⟨bound, hbound, same⟩ :=
    evaluate_expand .silent .silent .verbose rfl ground rfl ground' rfl
  exact ⟨rfl, rfl, bound, hbound, same.symm⟩

end Expression
end ReversePolish

/-
Equal tokens. Two tokens on a shelf are equal if they are the very same or
agree; that is an equivalence. Tokens of one operation are equal wherever they
lie. An undefined number agrees with none, so that its token is equal to
itself alone; two tokens that hold the very same undefined number, which are
not told apart, are taken to lie at one place.

Whatever looks at the structure of a sequence alone cannot tell equal tokens
apart, although the two noughts are equal and are not the same double: it
looks at no more of a token than its literal, or its name, or the kind, the
name and the count of its operation (`Token.Alike`). So sequences that are
equal token by token have one text or one error, pass or fail every check
alike, and name and count the same (`equalAt_congruence`).
-/
import Mathlib.Data.List.Forall2
import ReversePolish.Proofs.Number.Literals
import ReversePolish.Proofs.Reachable

namespace ReversePolish

/-! ## The same operation -/

/-- What makes an operator the one that it is. -/
def Operator.identity : Operator → BuiltinOperator ⊕ Nat × String × Count
  | .builtin o => .inl o
  | .defined d => .inr (d.serial, d.symbol, d.operands)

theorem Operator.same_iff {o o' : Operator} : o.same o' = true ↔ o.identity = o'.identity := by
  cases o <;> cases o' <;> simp [same, identity, and_assoc]

/-- The same operators are written alike and take equally many operands. -/
theorem Operator.outline_of_same {o o' : Operator} (h : o.same o' = true) :
    o.symbol = o'.symbol ∧ o.operands = o'.operands := by
  have identities := same_iff.mp h
  cases o <;> cases o' <;> simp_all [identity, symbol, operands]

def Function.identity : Function → BuiltinFunction ⊕ Nat × String × Count
  | .builtin f => .inl f
  | .defined d => .inr (d.serial, d.name, d.arguments)

theorem Function.same_iff {f f' : Function} : f.same f' = true ↔ f.identity = f'.identity := by
  cases f <;> cases f' <;> simp [same, identity, and_assoc]

theorem Function.outline_of_same {f f' : Function} (h : f.same f' = true) :
    f.name = f'.name ∧ f.arguments = f'.arguments := by
  have identities := same_iff.mp h
  cases f <;> cases f' <;> simp_all [identity, name, arguments]

def Operation.identity : Operation →
    (BuiltinOperator ⊕ Nat × String × Count) ⊕ (BuiltinFunction ⊕ Nat × String × Count)
  | .operator o => .inl o.identity
  | .function f => .inr f.identity

/-- Operations are the same if nothing of their identity differs. -/
theorem Operation.same_iff {op op' : Operation} :
    op.same op' = true ↔ op.identity = op'.identity := by
  cases op <;> cases op' <;> simp [same, identity, Operator.same_iff, Function.same_iff]

/-! ## Equality -/

namespace Token

theorem agrees_symm {t u : Token} (h : t.agrees u = true) : u.agrees t = true := by
  cases t <;> cases u <;> try cases h
  case number.number x y => exact BEq.symm h
  case name.name m n => exact BEq.symm h
  case operation.operation op op' =>
    exact Operation.same_iff.mpr (Operation.same_iff.mp h).symm

theorem agrees_trans {t u v : Token} (h : t.agrees u = true) (h' : u.agrees v = true) :
    t.agrees v = true := by
  cases t <;> cases u <;> try cases h
  all_goals cases v <;> try cases h'
  case number.number.number x y z => exact BEq.trans h h'
  case name.name.name l m n => exact BEq.trans h h'
  case operation.operation.operation op op' op'' =>
    exact Operation.same_iff.mpr ((Operation.same_iff.mp h).trans (Operation.same_iff.mp h'))

end Token

theorem equalAt_iff {shelf : Array Token} {i j : Nat} :
    equalAt shelf i j = true ↔
      i = j ∨ ∃ t u, shelf[i]? = some t ∧ shelf[j]? = some u ∧ t.agrees u = true := by
  unfold equalAt
  rw [Bool.or_eq_true, beq_iff_eq]
  refine or_congr_right ?_
  cases shelf[i]? <;> cases shelf[j]? <;> simp

/-- When a token at one place and a token at another are equal. -/
def Token.EqualWhen (i j : Nat) : Token → Token → Prop
  | .number x, .number y => i = j ∨ x == y
  | .name m, .name n => m = n
  | .operation op, .operation op' => op.identity = op'.identity
  | _, _ => False

theorem Token.EqualWhen.refl (i : Nat) : ∀ t : Token, Token.EqualWhen i i t t
  | .number _ => .inl rfl
  | .name _ => rfl
  | .operation _ => rfl

theorem Token.equalWhen_iff_agrees {i j : Nat} (apart : i ≠ j) (t u : Token) :
    Token.EqualWhen i j t u ↔ t.agrees u = true := by
  cases t <;> cases u <;> simp [EqualWhen, agrees, apart, Operation.same_iff]

theorem equalAt_iff_equalWhen {shelf : Array Token} (i j : Fin shelf.size) :
    equalAt shelf i j = true ↔ Token.EqualWhen i j shelf[i] shelf[j] := by
  by_cases same : i = j
  · subst same
    exact iff_of_true (equalAt_iff.mpr (.inl rfl)) (.refl _ _)
  · have apart : (i : Nat) ≠ j := Fin.val_ne_of_ne same
    rw [Token.equalWhen_iff_agrees apart, equalAt_iff]
    simp [apart]

/-- **Equality of tokens is an equivalence**, wherever they lie. -/
theorem equalAt_equivalence (shelf : Array Token) :
    Equivalence fun i j => equalAt shelf i j = true where
  refl i := equalAt_iff.mpr (.inl rfl)
  symm := by
    intro i j h
    rw [equalAt_iff] at h ⊢
    rcases h with rfl | ⟨t, u, hi, hj, agree⟩
    · exact .inl rfl
    · exact .inr ⟨u, t, hj, hi, Token.agrees_symm agree⟩
  trans := by
    intro i j k h h'
    rw [equalAt_iff] at h h' ⊢
    rcases h with rfl | ⟨t, u, hi, hj, agree⟩
    · exact h'
    · rcases h' with rfl | ⟨u', v, hj', hk, agree'⟩
      · exact .inr ⟨t, u, hi, hj, agree⟩
      · rw [hj] at hj'
        cases hj'
        exact .inr ⟨t, v, hi, hk, Token.agrees_trans agree agree'⟩

/-! ## What structure shows of a token -/

namespace Token

/-- Numbers of one literal, the same name, or operators or functions of one name and count. Unlike
`Matches`, it holds of every token and itself: an undefined number has a literal too. -/
inductive Alike : Token → Token → Prop
  | number {x y : Float} (literal : Rendering.number x = Rendering.number y) :
    Alike (.number x) (.number y)
  | name (n : String) : Alike (.name n) (.name n)
  | operator {o o' : Operator} (symbol : o.symbol = o'.symbol)
    (operands : o.operands = o'.operands) :
    Alike (.operation (.operator o)) (.operation (.operator o'))
  | function {f f' : Function} (name : f.name = f'.name) (arguments : f.arguments = f'.arguments) :
    Alike (.operation (.function f)) (.operation (.function f'))

theorem Alike.refl : ∀ t : Token, t.Alike t
  | .number _ => .number rfl
  | .name n => .name n
  | .operation (.operator _) => .operator rfl rfl
  | .operation (.function _) => .function rfl rfl

theorem alike_of_agrees {t u : Token} (h : t.agrees u = true) : t.Alike u := by
  cases t <;> cases u <;> try cases h
  case number.number x y => exact .number (Rendering.number_eq_of_beq h)
  case name.name m n =>
    obtain rfl : m = n := beq_iff_eq.mp h
    exact .name m
  case operation.operation op op' =>
    cases op <;> cases op' <;> try cases h
    case operator.operator o o' =>
      obtain ⟨symbol, operands⟩ := Operator.outline_of_same h
      exact .operator symbol operands
    case function.function f f' =>
      obtain ⟨name, arguments⟩ := Function.outline_of_same h
      exact .function name arguments

theorem Alike.type_eq {t u : Token} (h : t.Alike u) : t.type = u.type := by
  cases h <;> rfl

theorem Alike.variableName?_eq {t u : Token} (h : t.Alike u) :
    t.variableName? = u.variableName? := by
  cases h <;> rfl

end Token

theorem alike_of_equalAt {shelf : Array Token} {i j : Fin shelf.size}
    (h : equalAt shelf i j = true) : shelf[i].Alike shelf[j] := by
  rcases equalAt_iff.mp h with same | ⟨t, u, hi, hj, agree⟩
  · rw [Fin.ext same]
    exact .refl _
  · have left : shelf[i] = t := Option.some.inj ((Array.getElem?_eq_getElem i.isLt).symm.trans hi)
    have right : shelf[j] = u := Option.some.inj ((Array.getElem?_eq_getElem j.isLt).symm.trans hj)
    rw [left, right]
    exact Token.alike_of_agrees agree

/-! ### One text -/

/-- Operations that fail alike and give alike are read alike. -/
theorem Interpretation.step_operation_congr {α : Type} {I : Interpretation α} (op op' : Operation)
    (kind : op.kind = op'.kind) (name : op.name = op'.name) (count : op.count = op'.count)
    (apply : I.apply op = I.apply op') (stack : List α) :
    I.step stack (.operation op) = I.step stack (.operation op') := by
  have tooFew : EvalError.tooFew op stack.length = EvalError.tooFew op' stack.length := by
    rw [EvalError.tooFew, EvalError.tooFew, kind, name, count]
  have arity : op.arity = op'.arity := congrArg Count.toNat count
  rw [step, step, tooFew, arity, count, apply]

namespace Rendering

theorem apply_operator {o o' : Operator} (symbol : o.symbol = o'.symbol) :
    interpretation.apply (.operator o) = interpretation.apply (.operator o') := by
  funext args
  rcases args with _ | ⟨a, _ | ⟨b, rest⟩⟩ <;> simp only [interpretation, application, symbol]

theorem apply_function {f f' : Function} (name : f.name = f'.name) :
    interpretation.apply (.function f) = interpretation.apply (.function f') := by
  funext args
  simp only [interpretation, application, name]

theorem step_congr {t u : Token} (h : t.Alike u) (stack : List String) :
    interpretation.step stack t = interpretation.step stack u := by
  cases h with
  | number literal => simp only [Interpretation.step, interpretation, literal]
  | name n => rfl
  | @operator o o' symbol operands =>
    exact Interpretation.step_operation_congr (.operator o) (.operator o') rfl symbol operands
      (apply_operator symbol) stack
  | @function f f' name arguments =>
    exact Interpretation.step_operation_congr (.function f) (.function f') rfl name arguments
      (apply_function name) stack

theorem steps_congr {ts us : List Token} (h : List.Forall₂ Token.Alike ts us)
    (stack : List String) : interpretation.steps stack ts = interpretation.steps stack us := by
  induction h generalizing stack with
  | nil => rfl
  | cons alike _ ih => simp only [Interpretation.steps, step_congr alike, ih]

end Rendering

theorem rendering_congr {ts us : List Token} (h : List.Forall₂ Token.Alike ts us) :
    rendering ts = rendering us := by
  simp only [rendering, Interpretation.fold, Rendering.steps_congr h]

/-! ### One check -/

namespace Validation

theorem balanceAfter_congr {t u : Token} (h : t.Alike u) (count : Int) :
    balanceAfter count t = balanceAfter count u := by
  cases h with
  | number | name => rfl
  | operator symbol operands => simp only [balanceAfter, operands]
  | function name arguments => simp only [balanceAfter, arguments]

theorem shortage_congr {t u : Token} (h : t.Alike u) (count : Int) :
    shortage count t = shortage count u := by
  cases h with
  | number | name | operator => rfl
  | function name arguments => simp only [shortage, name, arguments]

theorem structural_congr {ts us : List Token} (h : List.Forall₂ Token.Alike ts us) (count : Int) :
    structural count ts = structural count us := by
  induction h generalizing count with
  | nil => rfl
  | cons alike _ ih =>
    simp only [structural, shortage_congr alike, balanceAfter_congr alike, ih]

theorem unbound_congr (isBound : String → Bool) {ts us : List Token}
    (h : List.Forall₂ Token.Alike ts us) : unbound isBound ts = unbound isBound us := by
  induction h with
  | nil => rfl
  | cons alike _ ih =>
    rw [unbound, unbound] at ih ⊢
    cases alike <;> simp only [List.filterMap_cons, ih]

end Validation

/-! ### One structure -/

/-- Whatever looks at nothing but the structure finds the same in two sequences. -/
structure StructurallyAlike (ts us : List Token) : Prop where
  text : rendering ts = rendering us
  check : ∀ isBound checkVariables, validate ts isBound checkVariables =
    validate us isBound checkVariables
  names : variableNames ts = variableNames us
  counts : ∀ type, countOfType type ts = countOfType type us

/-- What is alike in tokens that are alike is the same all along. -/
theorem map_eq_of_alike {β : Type} {f : Token → β} (same : ∀ {t u : Token}, t.Alike u → f t = f u)
    {ts us : List Token} (h : List.Forall₂ Token.Alike ts us) : ts.map f = us.map f := by
  rw [← List.forall₂_eq_eq_eq, List.forall₂_map_left_iff, List.forall₂_map_right_iff]
  exact h.imp fun _ _ => same

theorem structurallyAlike_of_alike {ts us : List Token} (h : List.Forall₂ Token.Alike ts us) :
    StructurallyAlike ts us where
  text := rendering_congr h
  check isBound checkVariables := by
    simp only [validate, Validation.unbound_congr isBound h, Validation.structural_congr h]
  names := by
    have shown (l : List Token) :
        variableNames l = ((l.map Token.variableName?).filterMap id).eraseDups := by
      rw [List.filterMap_map, Function.id_comp, variableNames]
    rw [shown, shown us, map_eq_of_alike Token.Alike.variableName?_eq h]
  counts type := by
    have counted (l : List Token) : countOfType type l = (l.map Token.type).count type := by
      rw [countOfType, List.count_eq_countP, List.countP_map]
      rfl
    rw [counted, counted us, map_eq_of_alike Token.Alike.type_eq h]

/-- The tokens that lie at places on a shelf. -/
def shelved (shelf : Array Token) (places : List (Fin shelf.size)) : List Token :=
  places.map (shelf[·])

/-- **Equality of tokens is an equivalence and a congruence.** It is that of numbers, an undefined
one being equal to itself at its own place, of names and of operations. Sequences that are equal
place by place, well formed or not, are structurally alike; so expressions over them are written
alike however they came about, and checked alike if the same names are bound. -/
theorem equalAt_congruence (shelf : Array Token) :
    (Equivalence fun i j => equalAt shelf i j = true) ∧
      (∀ i j : Fin shelf.size,
        equalAt shelf i j = true ↔ Token.EqualWhen i j shelf[i] shelf[j]) ∧
      ∀ places places' : List (Fin shelf.size),
        List.Forall₂ (fun i j : Fin shelf.size => equalAt shelf i j = true) places places' →
        StructurallyAlike (shelved shelf places) (shelved shelf places') ∧
        ∀ e e' : Expression, e.Reachable → e'.Reachable →
          e.tokens = shelved shelf places → e'.tokens = shelved shelf places' →
          e.render.2 = e'.render.2 ∧
          ((∀ n, e.bindings.contains (.text n) = e'.bindings.contains (.text n)) →
            ∀ checkVariables, e.validate (some checkVariables) =
              e'.validate (some checkVariables)) := by
  refine ⟨equalAt_equivalence shelf, equalAt_iff_equalWhen, fun places places' equal => ?_⟩
  have alike : StructurallyAlike (shelved shelf places) (shelved shelf places') := by
    refine structurallyAlike_of_alike ?_
    rw [shelved, shelved, List.forall₂_map_left_iff, List.forall₂_map_right_iff]
    exact equal.imp fun _ _ => alike_of_equalAt
  refine ⟨alike, fun e e' reached reached' tokens tokens' => ⟨?_, fun bound checkVariables => ?_⟩⟩
  · rw [reached.render, reached'.render, tokens, tokens', alike.text]
  · simp only [Expression.validate, Option.getD_some, tokens, tokens', alike.check, bound]

/-- The two noughts, an undefined number, and an operator. -/
def assorted : Array Token :=
  #[.number 0.0, .number (-0.0), .number Float.nan, .operation (.operator (.builtin .divide))]

instance : NeZero assorted.size := ⟨by decide⟩

/-- The noughts are equal and not the same, and the undefined number is equal to itself alone. -/
theorem equalAt_congruence_assorted :
    (0.0 : Float) ≠ -0.0 ∧ equalAt assorted 0 1 = true ∧
      (Token.number Float.nan).agrees (.number Float.nan) = false ∧
      StructurallyAlike (shelved assorted [2, 0, 3]) (shelved assorted [2, 1, 3]) ∧
      rendering (shelved assorted [2, 0, 3]) = .ok "(nan / 0)" ∧
      StructurallyAlike (shelved assorted [3, 0]) (shelved assorted [3, 1]) ∧
      rendering (shelved assorted [3, 0]) =
        .error (.arity .operator "/" (.whole 2) 0) := by
  have noughts : equalAt assorted 0 1 = true := by decide
  obtain ⟨equivalence, -, congruence⟩ := equalAt_congruence assorted
  have alike := congruence [2, 0, 3] [2, 1, 3]
    (.cons (equivalence.refl 2) (.cons noughts (.cons (equivalence.refl 3) .nil)))
  have failing := congruence [3, 0] [3, 1] (.cons (equivalence.refl 3) (.cons noughts .nil))
  exact ⟨by decide, noughts, by decide, alike.1, by decide +kernel, failing.1, rfl⟩

end ReversePolish

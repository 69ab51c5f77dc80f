/-
The term of an expression means what the expression means, in every field in
which numerals, names and functions are given meanings (`value_symbolic`).
Taking a term for its value respects every token (`Semantics.respects`), so it
respects trees (`Tree.value_map`).

What a term is built of is as plain as can be: differences, quotients, other
logarithms and the like are read through their definitions. Remainders and
cube roots are left out.
-/
import ReversePolish.Proofs.Listing
import ReversePolish.Proofs.Number.Double

namespace ReversePolish

/-! ## Readings along a map -/

/-- The second interpretation is the first one seen through a map, as far as the tokens go. -/
structure Interpretation.Respects {α : Type u} {β : Type v} (f : α → β) (I : Interpretation α)
    (J : Interpretation β) (ts : List Token) : Prop where
  number : ∀ x, .number x ∈ ts → J.number x = f (I.number x)
  name : ∀ n, .name n ∈ ts → J.name n = (I.name n).map f
  apply : ∀ op, .operation op ∈ ts → ∀ args : List α, args.length = op.arity →
    J.apply op (args.map f) = (I.apply op args).map f

theorem Interpretation.Respects.subset {α : Type u} {β : Type v} {f : α → β}
    {I : Interpretation α} {J : Interpretation β} {ts us : List Token}
    (h : Respects f I J ts) (sub : us ⊆ ts) : Respects f I J us :=
  ⟨fun x hx => h.number x (sub hx), fun n hn => h.name n (sub hn),
    fun op hop => h.apply op (sub hop)⟩

namespace Tree

theorem valueAll_map {α : Type u} {β : Type v} {f : α → β} {I : Interpretation α}
    {J : Interpretation β} {ts : List Tree} (each : ∀ t ∈ ts, t.value J = (t.value I).map f) :
    valueAll J ts = (valueAll I ts).map (List.map f) := by
  induction ts with
  | nil => rfl
  | cons t rest ih =>
    rw [valueAll, valueAll, each t (List.mem_cons_self ..),
      ih fun u hu => each u (List.mem_cons_of_mem t hu)]
    cases t.value I with
    | error e => rfl
    | ok v => cases valueAll I rest <;> rfl

/-- **The meaning of a tree is seen through the map as well.** -/
theorem value_map {α : Type u} {β : Type v} {f : α → β} {I : Interpretation α}
    {J : Interpretation β} (t : Tree) (wf : t.WellFormed) (h : I.Respects f J t.postorder) :
    t.value J = (t.value I).map f := by
  induction t using inductionOn with
  | number x => exact congrArg Except.ok (h.number x (List.mem_singleton_self _))
  | name n => exact h.name n (List.mem_singleton_self _)
  | node op args ih =>
    have all : valueAll J args = (valueAll I args).map (List.map f) := by
      exact valueAll_map fun a ha => ih a ha (allWellFormed_iff.mp wf.2 a ha)
        (h.subset fun u hu => mem_postorder_of_mem ha hu)
    rw [value, value, all]
    cases values : valueAll I args with
    | error e => rfl
    | ok vs =>
      exact h.apply op (operation_mem_postorder op args) vs ((length_valueAll values).trans wf.1)

end Tree

/-! ## Meanings in a field -/

/-- What numerals, names and functions mean in a field. Functions known by name alone are told by
name and arguments; an inverse is a power. -/
structure Semantics (K : Type u) [Field K] where
  numeral : Float → K
  name : String → K
  applied : String → List K → K
  call : SymbolicFunction → K → K
  power : K → K → K
  pi : K
  zeros : numeral (-0.0) = numeral 0.0
  inverse : ∀ a, power a (-1) = 1 / a

namespace Semantics

variable {K : Type u} [Field K] (S : Semantics K)

def log (x : K) : K := S.call .log x

/-- A built-in operator. Remainders have no meaning in a field, and are nought here. -/
def operator : BuiltinOperator → List K → K
  | .add, [a, b] => a + b
  | .subtract, [a, b] => a - b
  | .multiply, [a, b] => a * b
  | .divide, [a, b] => a / b
  | .power, [a, b] => S.power a b
  | .negate, [a] => -a
  | .plus, [a] => a
  | _, _ => 0

/-- A built-in function of one argument. Cube roots have no meaning in a field either. -/
def unary (f : BuiltinFunction) (x : K) : K :=
  match f with
  | .sin => S.call .sin x
  | .cos => S.call .cos x
  | .tan => S.call .tan x
  | .cot => S.call .cot x
  | .csc => S.call .csc x
  | .sec => S.call .sec x
  | .asin => S.call .asin x
  | .acos => S.call .acos x
  | .atan => S.call .atan x
  | .sinh => S.call .sinh x
  | .cosh => S.call .cosh x
  | .tanh => S.call .tanh x
  | .csch => S.call .csch x
  | .sech => S.call .sech x
  | .coth => S.call .coth x
  | .log => S.log x
  | .log2 => S.log x / S.log 2
  | .log10 => S.log x / S.log 10
  | .log1p => S.log (1 + x)
  | .exp => S.call .exp x
  | .expm1 => S.call .exp x - 1
  | .sqrt => S.power x (1 / 2)
  | .abs => S.call .abs x
  | .ceil => S.call .ceiling x
  | .floor => S.call .floor x
  | .signum => S.call .sign x
  | .toradian => x * S.pi / 180
  | .todegree => x * 180 / S.pi
  | .cbrt | .logb | .pow => 0

def function : BuiltinFunction → List K → K
  | .logb, [x, base] => S.log x / S.log base
  | .pow, [a, b] => S.power a b
  | f, [x] => S.unary f x
  | _, _ => 0

/-- An operation applied to arguments: what is defined is known by its name alone. -/
def operation : Operation → List K → K
  | .operator (.builtin o), args => S.operator o args
  | .operator (.defined d), args => S.applied d.symbol args
  | .function (.builtin f), args => S.function f args
  | .function (.defined d), args => S.applied d.name args

def meaning : Interpretation K where
  number := S.numeral
  name n := .ok (S.name n)
  apply op args := .ok (S.operation op args)

mutual

/-- The value of a term, a logarithm to a base being a quotient of logarithms. Terms for what is no
number, and remainders, have the value nought. -/
def value : Symbolic → K
  | .symbol n => S.name n
  | .real x => S.numeral x
  | .whole n => n
  | .ratio num den => num / den
  | .pi => S.pi
  | .add a b => value a + value b
  | .mul a b => value a * value b
  | .pow a b => S.power (value a) (value b)
  | .call f a => S.call f (value a)
  | .logBase a base => S.log (value a) / S.log (value base)
  | .applied n args => S.applied n (valueAll args)
  | .mod _ _ => 0
  | .undefined => 0
  | .infinite _ => 0

def valueAll : List Symbolic → List K
  | [] => []
  | a :: rest => value a :: valueAll rest

end

theorem valueAll_eq_map (args : List Symbolic) : S.valueAll args = args.map S.value := by
  induction args with
  | nil => rfl
  | cons a rest ih => rw [valueAll, ih, List.map_cons]

/-! ## The parts of terms -/

theorem value_ofNumber {x : Float} (h : Binary64.IsFinite x) :
    S.value (Symbolic.ofNumber x) = S.numeral x := by
  obtain ⟨negative, size, hx⟩ := h
  simp only [Symbolic.ofNumber, hx]
  split
  next none =>
    rw [Binary64.eq_zero_of_finite hx none, value]
    cases negative with
    | true => exact S.zeros.symm
    | false => rfl
  next => rfl

theorem value_negated (a : Symbolic) : S.value (Symbolic.negated a) = - S.value a := by
  rw [Symbolic.negated, value, value, Int.cast_neg, Int.cast_one, neg_one_mul]

theorem value_inverse (a : Symbolic) : S.value (Symbolic.inverse a) = 1 / S.value a := by
  rw [Symbolic.inverse, value, value, Int.cast_neg, Int.cast_one, S.inverse]

theorem value_successor (a : Symbolic) : S.value (Symbolic.successor a) = 1 + S.value a := by
  unfold Symbolic.successor
  split
  · rw [value, value, Int.cast_one, add_comm]
  · rw [value, value, Int.cast_one]

theorem value_scaled (a factor divisor : Symbolic) :
    S.value (Symbolic.scaled a factor divisor) =
      S.value a * S.value factor / S.value divisor := by
  unfold Symbolic.scaled
  split
  · rw [value, zero_mul, zero_div]
  · rw [value, value, value_inverse, mul_one_div]

/-! ## Operations -/

theorem ofOperator_applied {symbol : String} {args : List Symbolic}
    (other : BuiltinOperator.find? symbol args.length = none) :
    Symbolic.ofOperator symbol args = .applied symbol args := by
  unfold Symbolic.ofOperator
  split
  all_goals first
    | rfl
    | cases other

theorem value_ofOperator {o : BuiltinOperator} (ring : o ≠ .modulo) {args : List Symbolic}
    (length : args.length = o.arity) :
    S.value (Symbolic.ofOperator o.symbol args) = S.operator o (args.map S.value) := by
  cases o with
  | negate =>
    obtain ⟨a, rfl⟩ := List.length_eq_one_iff.mp length
    exact S.value_negated a
  | plus =>
    obtain ⟨a, rfl⟩ := List.length_eq_one_iff.mp length
    rfl
  | subtract =>
    obtain ⟨a, b, rfl⟩ := List.length_eq_two.mp length
    calc S.value (.add a (Symbolic.negated b)) = S.value a + - S.value b := by
          rw [value, value_negated]
      _ = S.value a - S.value b := (sub_eq_add_neg ..).symm
  | divide =>
    obtain ⟨a, b, rfl⟩ := List.length_eq_two.mp length
    calc S.value (.mul a (Symbolic.inverse b)) = S.value a * (1 / S.value b) := by
          rw [value, value_inverse]
      _ = S.value a / S.value b := mul_one_div ..
  | add | multiply | power =>
    obtain ⟨a, b, rfl⟩ := List.length_eq_two.mp length
    rfl
  | modulo => exact absurd rfl ring

theorem value_ofUnary {f : BuiltinFunction} (root : f ≠ .cbrt) (single : f.arity = 1)
    (x : Symbolic) : S.value (Symbolic.ofUnary f x) = S.unary f (S.value x) := by
  cases f with
  | log2 | log10 => simp only [Symbolic.ofUnary, value, unary, Int.cast_ofNat]
  | log1p => simp only [Symbolic.ofUnary, value, unary, value_successor, log]
  | expm1 =>
    simp only [Symbolic.ofUnary, value, unary, Int.cast_neg, Int.cast_one, sub_eq_add_neg]
  | sqrt => simp only [Symbolic.ofUnary, value, unary, Nat.cast_one, Nat.cast_ofNat]
  | toradian | todegree =>
    simp only [Symbolic.ofUnary, value_scaled, value, unary, Int.cast_ofNat]
  | cbrt => exact absurd rfl root
  | logb | pow => cases single
  | sin | cos | tan | cot | csc | sec | asin | acos | atan | sinh | cosh | tanh | csch | sech
  | coth | log | exp | abs | ceil | floor | signum => rfl

theorem value_ofFunction {f : BuiltinFunction} (root : f ≠ .cbrt) {args : List Symbolic}
    (length : args.length = f.arity) :
    S.value (Symbolic.ofFunction f args) = S.function f (args.map S.value) := by
  by_cases single : f.arity = 1
  · obtain ⟨x, rfl⟩ := List.length_eq_one_iff.mp (length.trans single)
    have unary : Symbolic.ofFunction f [x] = Symbolic.ofUnary f x := by
      cases f <;> rfl
    have meaning : S.function f [S.value x] = S.unary f (S.value x) := by
      cases f <;> rfl
    rw [unary, List.map_singleton, meaning]
    exact S.value_ofUnary root single x
  · have two : f = .logb ∨ f = .pow := by
      cases f <;> simp [BuiltinFunction.arity] at single ⊢
    rcases two with rfl | rfl
    · obtain ⟨x, base, rfl⟩ := List.length_eq_two.mp length
      rfl
    · obtain ⟨a, b, rfl⟩ := List.length_eq_two.mp length
      rfl

end Semantics

/-! ## Token sequences -/

/-- The tokens whose terms have meanings in a field: finite numbers, names, built-in operators but
for the remainder, built-in functions but for the cube root, and whatever is defined, if it is no
operator that could be taken for a built-in one. -/
def Token.HasMeaning : Token → Prop
  | .number x => Binary64.IsFinite x
  | .name _ => True
  | .operation (.operator (.builtin o)) => o ≠ .modulo
  | .operation (.operator (.defined d)) =>
    BuiltinOperator.find? d.symbol d.operands.toNat = none
  | .operation (.function (.builtin f)) => f ≠ .cbrt
  | .operation (.function (.defined _)) => True

namespace Semantics

variable {K : Type u} [Field K] (S : Semantics K)

theorem value_application {op : Operation} (h : Token.HasMeaning (.operation op))
    {args : List Symbolic} (length : args.length = op.arity) :
    S.value (Symbolic.application op args) = S.operation op (args.map S.value) := by
  match op, h, length with
  | .operator (.builtin o), h, length => exact S.value_ofOperator h length
  | .function (.builtin f), h, length => exact S.value_ofFunction h length
  | .operator (.defined d), h, length =>
    have other : BuiltinOperator.find? d.symbol args.length = none := by
      rw [length]
      exact h
    calc S.value (Symbolic.ofOperator d.symbol args) = S.value (.applied d.symbol args) := by
          rw [ofOperator_applied other]
      _ = S.applied d.symbol (args.map S.value) := by rw [value, valueAll_eq_map]
  | .function (.defined d), _, _ =>
    calc S.value (.applied d.name args) = S.applied d.name (args.map S.value) := by
          rw [value, valueAll_eq_map]

/-- **Taking terms for their values respects every token.** -/
theorem respects {ts : List Token} (h : ∀ u ∈ ts, u.HasMeaning) :
    Symbolic.interpretation.Respects S.value S.meaning ts where
  number _ hx := (S.value_ofNumber (h _ hx)).symm
  name _ _ := rfl
  apply _ hop _ length :=
    congrArg Except.ok (S.value_application (h _ hop) length).symm

/-- A meaning among the rationals: doubles as they are, three for every name and for π, the sum of
the arguments for what is known by name, and the argument itself for the other functions. -/
def rational : Semantics ℚ where
  numeral x := match Binary64.ofFloat x with
    | .finite negative size => if negative then -size.value else size.value
    | _ => 0
  name _ := 3
  applied _ args := args.sum
  call _ x := x
  power a b := if b = -1 then 1 / a else a
  pi := 3
  zeros := by
    have negative : Binary64.ofFloat (-0.0) = .finite true .zero := rfl
    have positive : Binary64.ofFloat 0.0 = .finite false .zero := rfl
    simp [negative, positive, Magnitude.value, Magnitude.zero]
  inverse _ := if_pos rfl

end Semantics

namespace Expression

/-- The term of an expression that lists a tree is the term of the tree, if all counts are places
in a sequence. -/
theorem symbolic_eq_ok_iff {e : Expression} {t : Tree} (wf : t.WellFormed)
    (listed : t.postorder = e.tokens) {term : Symbolic} :
    e.symbolic = .ok term ↔ (∀ op, .operation op ∈ e.tokens → op.count.isIndex = true) ∧
      t.value Symbolic.interpretation = .ok term := by
  obtain ⟨found, hfound⟩ := t.value_ok wf (symbolic_totalOn t.postorder)
  have reads (term : Symbolic) : e.symbolic = .ok term ↔
      (∀ op, .operation op ∈ e.tokens → op.count.isIndex = true) ∧
        ∃ t : Tree, t.WellFormed ∧ t.postorder = e.tokens ∧
          t.value Symbolic.interpretation = .ok term :=
    Tree.fold_eq_ok_iff (symbolic_totalOn e.tokens)
  constructor
  · intro h
    have index := ((reads term).mp h).1
    have same := (reads found).mpr ⟨index, t, wf, listed, hfound⟩
    rw [h] at same
    exact ⟨index, hfound.trans same.symm⟩
  · rintro ⟨index, h⟩
    exact (reads term).mpr ⟨index, t, wf, listed, h⟩

/-- **The term of an expression means what the expression means.** An expression that lists a tree
has a term exactly if all counts are places in a sequence; and the value of that term in a field is
the value of the tree, found by recursion, for any meaning of numerals, names and functions there
and of what the caller defined. -/
theorem value_symbolic {K : Type u} [Field K] (S : Semantics K) (e : Expression) {t : Tree}
    (wf : t.WellFormed) (listed : t.postorder = e.tokens)
    (meant : ∀ u ∈ e.tokens, u.HasMeaning) :
    ((∃ term, e.symbolic = .ok term) ↔ ∀ op, .operation op ∈ e.tokens → op.count.isIndex = true) ∧
      ∀ term, e.symbolic = .ok term → t.value S.meaning = .ok (S.value term) := by
  have reads (term : Symbolic) : e.symbolic = .ok term ↔
      (∀ op, .operation op ∈ e.tokens → op.count.isIndex = true) ∧
        ∃ t : Tree, t.WellFormed ∧ t.postorder = e.tokens ∧
          t.value Symbolic.interpretation = .ok term :=
    Tree.fold_eq_ok_iff (symbolic_totalOn e.tokens)
  constructor
  · constructor
    · rintro ⟨term, h⟩
      exact ((reads term).mp h).1
    · intro index
      obtain ⟨term, h⟩ := t.value_ok wf (symbolic_totalOn t.postorder)
      exact ⟨term, (reads term).mpr ⟨index, t, wf, listed, h⟩⟩
  · intro term h
    obtain ⟨found, hfound⟩ := t.value_ok wf (symbolic_totalOn t.postorder)
    have same : e.symbolic = .ok found :=
      (reads found).mpr ⟨((reads term).mp h).1, t, wf, listed, hfound⟩
    rw [h] at same
    cases same
    have seen := t.value_map wf (S.respects (listed ▸ meant))
    rw [hfound] at seen
    exact seen

/-- The difference of a name and a number over the logarithm of the name. -/
def quotientTree : Tree :=
  .node (.operator (.builtin .divide))
    [.node (.operator (.builtin .subtract)) [.name "x", .number 2.0],
      .node (.function (.builtin .log2)) [.name "x"]]

theorem value_symbolic_quotient : ∃ term,
    (ofTokens quotientTree.postorder [] {}).symbolic = .ok term ∧
      quotientTree.value Semantics.rational.meaning = .ok (Semantics.rational.value term) ∧
      Semantics.rational.value term = 2 / 3 := by
  have wf : quotientTree.WellFormed := by
    simp only [quotientTree, Tree.WellFormed, Tree.AllWellFormed, and_true]
    exact ⟨rfl, rfl, rfl⟩
  have meant : ∀ u ∈ quotientTree.postorder, u.HasMeaning := by
    simp only [quotientTree, Tree.postorder, Tree.postorderAll, List.append_nil,
      List.cons_append, List.nil_append, List.forall_mem_cons, List.not_mem_nil, false_implies,
      implies_true, and_true]
    have two : Binary64.IsFinite 2.0 := ⟨_, _, rfl⟩
    have subtract : BuiltinOperator.subtract ≠ .modulo := by decide
    have log2 : BuiltinFunction.log2 ≠ .cbrt := by decide
    have divide : BuiltinOperator.divide ≠ .modulo := by decide
    exact ⟨trivial, two, subtract, trivial, log2, divide⟩
  have index : ∀ op, .operation op ∈ quotientTree.postorder → op.count.isIndex = true := by
    intro op hop
    simp only [quotientTree, Tree.postorder, Tree.postorderAll, List.append_nil,
      List.cons_append, List.nil_append, List.mem_cons, Token.operation.injEq, reduceCtorEq,
      false_or, List.not_mem_nil, or_false] at hop
    rcases hop with rfl | rfl | rfl <;> rfl
  obtain ⟨terms, values⟩ :=
    value_symbolic Semantics.rational (ofTokens quotientTree.postorder [] {}) wf rfl meant
  obtain ⟨term, h⟩ := terms.mpr index
  have value : quotientTree.value Semantics.rational.meaning =
      .ok ((3 - Semantics.rational.numeral 2.0) /
        (Semantics.rational.log 3 / Semantics.rational.log 2)) := rfl
  have two : Semantics.rational.numeral 2.0 = 2 := by
    have exactly : Semantics.rational.numeral 2.0 = Magnitude.value ⟨2 ^ 52, -51⟩ := rfl
    rw [exactly, Magnitude.value]
    norm_num
  have same := (values term h).symm.trans value
  rw [two] at same
  refine ⟨term, h, values term h, (Except.ok.inj same).trans ?_⟩
  simp only [Semantics.log, Semantics.rational]
  norm_num

end Expression
end ReversePolish

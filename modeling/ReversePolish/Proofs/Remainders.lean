/-
Remainders. Whole numbers have two: that of a division cut off towards zero,
which is what a kernel computes, and that of a division rounded downwards,
which is what a term stands for. They differ by the divisor unless it divides
the dividend or both are of one sign (`floored_remainder`). So a tree of sums,
differences, products and remainders has, in all its parts, the value of its
term exactly if no remainder in it is of the other kind
(`Expression.symbolic_agrees_iff`).
-/
import ReversePolish.Proofs.Opacity
import ReversePolish.Proofs.Number.Remainder

namespace ReversePolish

/-! ## Exact arithmetic -/

namespace BuiltinOperator

/-- The operators that whole numbers have: all but quotients and powers. -/
def isIntegral : BuiltinOperator → Bool
  | .divide | .power => false
  | _ => true

/-- What an operator computes of whole numbers when nothing is rounded. A remainder has the sign of
the dividend. -/
def integer : BuiltinOperator → List ℤ → ℤ
  | .add, [p, q] => p + q
  | .subtract, [p, q] => p - q
  | .multiply, [p, q] => p * q
  | .modulo, [p, q] => p.tmod q
  | .negate, [p] => -p
  | .plus, [p] => p
  | _, _ => 0

end BuiltinOperator

def Operation.integer : Operation → List ℤ → ℤ
  | .operator (.builtin o), args => o.integer args
  | _, _ => 0

def integers (env : String → ℤ) : Interpretation ℤ where
  number := Binary64.whole
  name n := .ok (env n)
  apply op args := .ok (op.integer args)

/-- Is the token a whole number, a name or an operator of whole numbers? -/
def Token.IsIntegral : Token → Prop
  | .number x => Binary64.IsWhole x
  | .name _ => True
  | .operation (.operator (.builtin o)) => o.isIntegral = true
  | .operation _ => False

theorem Token.IsIntegral.builtin {op : Operation} (h : Token.IsIntegral (.operation op)) :
    ∃ o : BuiltinOperator, op = .operator (.builtin o) ∧ o.isIntegral = true := by
  cases op with
  | operator o =>
    cases o with
    | builtin o => exact ⟨o, rfl, h⟩
    | defined d => cases h
  | function f => cases h

/-- The value of a term of sums, products and remainders among the rationals, the quotient of a
remainder being rounded downwards. Terms of other forms have the value nought. -/
def Symbolic.rational (env : String → ℤ) : Symbolic → ℚ
  | .symbol n => env n
  | .real x => (Binary64.ofFloat x).rational
  | .whole n => n
  | .add a b => a.rational env + b.rational env
  | .mul a b => a.rational env * b.rational env
  | .mod a b => a.rational env - b.rational env * ⌊a.rational env / b.rational env⌋
  | _ => 0

/-! ## The two remainders -/

theorem floor_quotient (p q : ℤ) : ⌊(p : ℚ) / q⌋ = p.fdiv q := by
  obtain ⟨n, rfl | rfl⟩ := q.eq_nat_or_neg
  · rw [Int.cast_natCast, Rat.floor_intCast_div_natCast, Int.fdiv_eq_ediv_of_nonneg _ (by omega)]
  · have swap : (p : ℚ) / (-(n : ℤ) : ℤ) = (-p : ℤ) / (n : ℚ) := by
      push_cast
      rw [div_neg, neg_div]
    rw [swap, Rat.floor_intCast_div_natCast, ← Int.fdiv_eq_ediv_of_nonneg _ (by omega),
      ← Int.neg_fdiv_neg, neg_neg]

/-- Is the remainder the same whichever way the quotient is rounded? -/
def SameRemainder (p q : ℤ) : Prop := q ∣ p ∨ (0 < p ↔ 0 < q)

/-- **The two remainders** are equal, or they differ by the divisor. -/
theorem floored_remainder (p q : ℤ) [Decidable (SameRemainder p q)] :
    (p : ℚ) - q * ⌊(p : ℚ) / q⌋ = (p.tmod q + if SameRemainder p q then 0 else q : ℤ) := by
  have differ : p.fmod q = p.tmod q + if SameRemainder p q then 0 else q := by
    rw [Int.fmod_eq_tmod]
    by_cases divides : q ∣ p
    · rw [if_pos divides, if_pos (.inl divides)]
    · have some : p ≠ 0 := fun none => divides (none ▸ dvd_zero q)
      simp only [SameRemainder, divides, if_false, false_or]
      split_ifs <;> omega
  rw [floor_quotient, ← differ, Int.fmod_def]
  push_cast
  rfl

/-! ## Trees -/

namespace Tree

mutual

/-- The tree and all trees in it, in postfix order. -/
def subtrees : Tree → List Tree
  | .number x => [.number x]
  | .name n => [.name n]
  | .node op args => subtreesAll args ++ [.node op args]

def subtreesAll : List Tree → List Tree
  | [] => []
  | t :: rest => t.subtrees ++ subtreesAll rest

end

theorem mem_subtreesAll {ts : List Tree} {s : Tree} :
    s ∈ subtreesAll ts ↔ ∃ t ∈ ts, s ∈ t.subtrees := by
  induction ts with
  | nil => simp [subtreesAll]
  | cons t ts ih => simp [subtreesAll, ih]

theorem mem_subtrees_self (t : Tree) : t ∈ t.subtrees := by
  cases t <;> simp [subtrees]

theorem valueAll_related {α : Type u} {β : Type v} {R : α → β → Prop} {I : Interpretation α}
    {J : Interpretation β} {ts : List Tree}
    (each : ∀ t ∈ ts, ∃ v w, t.value I = .ok v ∧ t.value J = .ok w ∧ R v w) :
    ∃ vs ws, valueAll I ts = .ok vs ∧ valueAll J ts = .ok ws ∧ List.Forall₂ R vs ws := by
  induction ts with
  | nil => exact ⟨[], [], rfl, rfl, .nil⟩
  | cons t rest ih =>
    obtain ⟨v, w, hv, hw, related⟩ := each t (List.mem_cons_self ..)
    obtain ⟨vs, ws, hvs, hws, all⟩ := ih fun u hu => each u (List.mem_cons_of_mem t hu)
    exact ⟨v :: vs, w :: ws, by rw [valueAll, hv, hvs], by rw [valueAll, hw, hws],
      .cons related all⟩

end Tree

def division? : Operation × List ℤ → Option (ℤ × ℤ)
  | (.operator (.builtin .modulo), [p, q]) => some (p, q)
  | _ => none

namespace Tree

/-- The dividends and divisors of the remainders in a tree. -/
def divisions (env : String → ℤ) (t : Tree) : List (ℤ × ℤ) :=
  (t.applications (integers env)).filterMap division?

/-- Does the tree have the value of its term? -/
def AgreesWithTerm (env : String → ℤ) (t : Tree) : Prop :=
  ∃ term p, t.value Symbolic.interpretation = .ok term ∧ t.value (integers env) = .ok p ∧
    term.rational env = p

variable {env : String → ℤ}

theorem mem_divisions_node {op : Operation} {args : List Tree} {values : List ℤ}
    (h : valueAll (integers env) args = .ok values) {d : ℤ × ℤ} :
    d ∈ (node op args).divisions env ↔
      (∃ t ∈ args, d ∈ t.divisions env) ∨ division? (op, values) = some d := by
  simp only [divisions, applications, h, List.filterMap_append, List.mem_append,
    List.mem_filterMap, mem_applicationsAll, List.mem_singleton, exists_eq_left]
  refine or_congr_left ⟨?_, ?_⟩
  · rintro ⟨a, ⟨t, ht, ha⟩, hd⟩
    exact ⟨t, ht, a, ha, hd⟩
  · rintro ⟨t, ht, a, ha, hd⟩
    exact ⟨a, ⟨t, ht, ha⟩, hd⟩

end Tree

/-! ## Terms -/

namespace Symbolic

variable {env : String → ℤ}

theorem rational_ofNumber {x : Float} (h : Binary64.IsWhole x) :
    (ofNumber x).rational env = (Binary64.whole x : ℚ) := by
  rw [h.2]
  obtain ⟨⟨negative, size, hx⟩, -⟩ := h
  simp only [ofNumber, hx]
  split
  next none =>
    have nought : Binary64.rational (.ofFloat 0.0) = 0 := by
      have zero : Binary64.ofFloat 0.0 = .finite false .zero := rfl
      simp [zero, Binary64.rational, Magnitude.value, Magnitude.zero]
    rw [rational, nought, Binary64.rational, Magnitude.value, none]
    simp
  next => rw [rational, hx]

/-- **An operator keeps the value of its operands' terms, unless it is a remainder** that depends
on how the quotient is rounded. -/
theorem rational_operatorForm {o : BuiltinOperator} (integral : o.isIntegral = true)
    {terms : List Symbolic} {values : List ℤ} (length : values.length = o.arity)
    (same : List.Forall₂ (fun (a : Symbolic) (p : ℤ) => a.rational env = p) terms values)
    (divisor : ∀ d, division? (.operator (.builtin o), values) = some d → d.2 ≠ 0) :
    (operatorForm o terms).rational env = (o.integer values : ℚ) ↔
      ∀ d, division? (.operator (.builtin o), values) = some d → SameRemainder d.1 d.2 := by
  classical
  cases o with
  | divide | power => cases integral
  | negate | plus =>
    obtain ⟨p, rfl⟩ := List.length_eq_one_iff.mp length
    obtain ⟨a, _, ha, ⟨⟩, rfl⟩ := List.forall₂_cons_right_iff.mp same
    simp [operatorForm, rational, ha, BuiltinOperator.integer, division?]
  | add | subtract | multiply =>
    obtain ⟨p, q, rfl⟩ := List.length_eq_two.mp length
    obtain ⟨a, _, ha, rest, rfl⟩ := List.forall₂_cons_right_iff.mp same
    obtain ⟨b, _, hb, ⟨⟩, rfl⟩ := List.forall₂_cons_right_iff.mp rest
    simp [operatorForm, rational, ha, hb, BuiltinOperator.integer, division?, sub_eq_add_neg]
  | modulo =>
    obtain ⟨p, q, rfl⟩ := List.length_eq_two.mp length
    obtain ⟨a, _, ha, rest, rfl⟩ := List.forall₂_cons_right_iff.mp same
    obtain ⟨b, _, hb, ⟨⟩, rfl⟩ := List.forall₂_cons_right_iff.mp rest
    have some : q ≠ 0 := divisor (p, q) rfl
    have floored : (operatorForm .modulo [a, b]).rational env =
        (p.tmod q + if SameRemainder p q then 0 else q : ℤ) := by
      rw [operatorForm, rational, ha, hb, floored_remainder]
    have cut : BuiltinOperator.integer .modulo [p, q] = p.tmod q := rfl
    rw [floored, cut, Int.cast_inj, add_eq_left]
    simp only [division?, Option.some.injEq, forall_eq', ite_eq_left_iff, some, imp_false,
      not_not]

end Symbolic

/-! ## Parts of trees -/

theorem integers_totalOn (env : String → ℤ) (ts : List Token) : (integers env).TotalOn ts :=
  ⟨fun n _ => ⟨env n, rfl⟩, fun op _ args _ => ⟨op.integer args, rfl⟩⟩

namespace Tree

variable {env : String → ℤ}

theorem agreesWithTerm_node {o : BuiltinOperator} (integral : o.isIntegral = true)
    {args : List Tree} (length : args.length = o.arity) {values : List ℤ}
    (h : valueAll (integers env) args = .ok values) (each : ∀ t ∈ args, t.AgreesWithTerm env)
    (divisor : ∀ d, division? (.operator (.builtin o), values) = some d → d.2 ≠ 0) :
    (node (.operator (.builtin o)) args).AgreesWithTerm env ↔
      ∀ d, division? (.operator (.builtin o), values) = some d → SameRemainder d.1 d.2 := by
  obtain ⟨terms, found, hterms, hvalues, same⟩ := valueAll_related each
  obtain rfl : found = values := Except.ok.inj (hvalues.symm.trans h)
  have values_length : found.length = o.arity := (length_valueAll h).trans length
  have term : (node (.operator (.builtin o)) args).value Symbolic.interpretation =
      .ok (Symbolic.operatorForm o terms) := by
    rw [value, hterms, ← Symbolic.ofOperator_symbol (same.length_eq.trans values_length)]
    rfl
  have exactly : (node (.operator (.builtin o)) args).value (integers env) =
      .ok (o.integer found) := by
    rw [value, h]
    rfl
  rw [← Symbolic.rational_operatorForm integral values_length same divisor, AgreesWithTerm, term,
    exactly]
  simp

/-- **All parts of a tree agree with their terms** exactly if every remainder in it is the same
whichever way the quotient is rounded. -/
theorem agreesWithTerm_subtrees_iff (t : Tree) (wf : t.WellFormed)
    (integral : ∀ u ∈ t.postorder, u.IsIntegral) (divisors : ∀ d ∈ t.divisions env, d.2 ≠ 0) :
    (∀ s ∈ t.subtrees, s.AgreesWithTerm env) ↔
      ∀ d ∈ t.divisions env, SameRemainder d.1 d.2 := by
  induction t using inductionOn with
  | number x =>
    have whole : Binary64.IsWhole x := integral _ (List.mem_singleton_self _)
    simpa [subtrees, divisions, applications] using
      ⟨_, _, rfl, rfl, Symbolic.rational_ofNumber whole⟩
  | name n =>
    simpa [subtrees, divisions, applications] using ⟨_, _, rfl, rfl, rfl⟩
  | node op args ih =>
    obtain ⟨values, h⟩ := valueAll_ok args wf.2 (integers_totalOn env _)
    have arguments : ∀ t ∈ args, ((∀ s ∈ t.subtrees, s.AgreesWithTerm env) ↔
        ∀ d ∈ t.divisions env, SameRemainder d.1 d.2) := fun t ht =>
      ih t ht (allWellFormed_iff.mp wf.2 t ht) (fun u hu => integral u (mem_postorder_of_mem ht hu))
        fun d hd => divisors d ((mem_divisions_node h).mpr (.inl ⟨t, ht, hd⟩))
    obtain ⟨o, rfl, operator⟩ := (integral _ (operation_mem_postorder op args)).builtin
    -- Where all arguments agree, it is for the node's own remainder to say whether the node does.
    have here (inner : ∀ t ∈ args, ∀ s ∈ t.subtrees, s.AgreesWithTerm env) :=
      agreesWithTerm_node operator wf.1 h (fun t ht => inner t ht t t.mem_subtrees_self)
        fun d hd => divisors d ((mem_divisions_node h).mpr (.inr hd))
    constructor
    · intro all d hd
      have inner : ∀ t ∈ args, ∀ s ∈ t.subtrees, s.AgreesWithTerm env := fun t ht s hs =>
        all s (List.mem_append_left _ (mem_subtreesAll.mpr ⟨t, ht, hs⟩))
      rcases (mem_divisions_node h).mp hd with ⟨t, ht, hd⟩ | hd
      · exact (arguments t ht).mp (inner t ht) d hd
      · exact (here inner).mp (all _ (mem_subtrees_self _)) d hd
    · intro all s hs
      have inner : ∀ t ∈ args, ∀ s ∈ t.subtrees, s.AgreesWithTerm env := fun t ht =>
        (arguments t ht).mpr fun d hd => all d ((mem_divisions_node h).mpr (.inl ⟨t, ht, hd⟩))
      rcases List.mem_append.mp hs with hs | hs
      · obtain ⟨t, ht, hs⟩ := mem_subtreesAll.mp hs
        exact inner t ht s hs
      · obtain rfl := List.mem_singleton.mp hs
        exact (here inner).mpr fun d hd => all d ((mem_divisions_node h).mpr (.inr hd))

end Tree

/-! ## Evaluations without rounding -/

namespace Operation

/-- Does the operation compute of these doubles what it computes of the whole numbers that they
are? -/
def Exact (op : Operation) (args : List Float) : Prop :=
  ∀ x, op.apply args = .ok x →
    Binary64.IsWhole x ∧ Binary64.whole x = op.integer (args.map Binary64.whole)

theorem apply_builtin {o : BuiltinOperator} {args : List Float} (length : args.length = o.arity) :
    ∃ x, (Operation.operator (.builtin o)).apply args = .ok x := by
  cases o with
  | negate | plus =>
    obtain ⟨x, rfl⟩ := List.length_eq_one_iff.mp length
    exact ⟨_, rfl⟩
  | add | subtract | multiply | divide | power | modulo =>
    obtain ⟨x, y, rfl⟩ := List.length_eq_two.mp length
    exact ⟨_, rfl⟩

theorem exact_modulo {args : List Float} (length : args.length = 2)
    (whole : ∀ x ∈ args, Binary64.IsWhole x)
    (divisor : ∀ d, division? (.operator (.builtin .modulo), args.map Binary64.whole) = some d →
      d.2 ≠ 0) : Exact (.operator (.builtin .modulo)) args := by
  obtain ⟨x, y, rfl⟩ := List.length_eq_two.mp length
  intro z hz
  obtain rfl : remainder x y = z := Except.ok.inj hz
  exact Binary64.whole_remainder (whole x (by simp)) (whole y (by simp)) (divisor (_, _) rfl)

end Operation

theorem Binary64.wholes_of_forall₂ {xs : List Float} {ps : List ℤ}
    (h : List.Forall₂ (fun x p => IsWhole x ∧ whole x = p) xs ps) :
    (∀ x ∈ xs, IsWhole x) ∧ ps = xs.map whole := by
  induction h with
  | nil => exact ⟨List.forall_mem_nil _, rfl⟩
  | cons first _ ih =>
    exact ⟨List.forall_mem_cons.mpr ⟨first.1, ih.1⟩, by rw [List.map_cons, first.2, ih.2]⟩

namespace Tree

variable {env : String → ℤ}

/-- **Computing with doubles is computing with whole numbers** as long as nothing is rounded, which
remainders never are. -/
theorem whole_value {value? : String → Option Float} (t : Tree) (wf : t.WellFormed)
    (integral : ∀ u ∈ t.postorder, u.IsIntegral)
    (bound : ∀ n, .name n ∈ t.postorder →
      ∃ x, value? n = some x ∧ Binary64.IsWhole x ∧ Binary64.whole x = env n)
    (exactly : ∀ a ∈ t.applications (valuation value?),
      a.1 ≠ .operator (.builtin .modulo) → a.1.Exact a.2)
    (divisors : ∀ d ∈ t.divisions env, d.2 ≠ 0) :
    ∃ x p, t.value (valuation value?) = .ok x ∧ t.value (integers env) = .ok p ∧
      Binary64.IsWhole x ∧ Binary64.whole x = p := by
  induction t using inductionOn with
  | number x => exact ⟨x, _, rfl, rfl, integral _ (List.mem_singleton_self _), rfl⟩
  | name n =>
    obtain ⟨x, hx, whole, same⟩ := bound n (List.mem_singleton_self _)
    refine ⟨x, env n, ?_, rfl, whole, same⟩
    simp only [value, valuation, hx]
  | node op args ih =>
    obtain ⟨values, h⟩ := valueAll_ok args wf.2 (integers_totalOn env _)
    have arguments : ∀ t ∈ args, ∃ x p, t.value (valuation value?) = .ok x ∧
        t.value (integers env) = .ok p ∧ Binary64.IsWhole x ∧ Binary64.whole x = p := by
      intro t ht
      exact ih t ht (allWellFormed_iff.mp wf.2 t ht)
        (fun u hu => integral u (mem_postorder_of_mem ht hu))
        (fun n hn => bound n (mem_postorder_of_mem ht hn))
        (fun a ha => exactly a (List.mem_append_left _ (mem_applicationsAll.mpr ⟨t, ht, ha⟩)))
        (fun d hd => divisors d ((mem_divisions_node h).mpr (.inl ⟨t, ht, hd⟩)))
    obtain ⟨xs, found, hxs, hfound, same⟩ := valueAll_related arguments
    obtain rfl : found = values := Except.ok.inj (hfound.symm.trans h)
    obtain ⟨wholes, rfl⟩ := Binary64.wholes_of_forall₂ same
    obtain ⟨o, rfl, -⟩ := (integral _ (operation_mem_postorder op args)).builtin
    have length : xs.length = o.arity := (length_valueAll hxs).trans wf.1
    obtain ⟨x, hx⟩ := Operation.apply_builtin length
    -- Remainders of whole numbers are never rounded; of the rest it was assumed.
    have here : Operation.Exact (.operator (.builtin o)) xs := by
      by_cases modulo : o = .modulo
      · subst modulo
        exact Operation.exact_modulo length wholes fun d hd =>
          divisors d ((mem_divisions_node h).mpr (.inr hd))
      · refine exactly (_, xs) (List.mem_append_right _ ?_) (by simpa using modulo)
        rw [hxs]
        exact List.mem_singleton_self _
    refine ⟨x, _, ?_, ?_, here x hx⟩
    · rw [value, hxs]
      simp only [valuation, hx]
    · rw [value, h]
      rfl

end Tree

namespace Expression

/-- **Evaluations and terms agree where remainders do.** Let an expression list a tree of whole
numbers, names and operators of whole numbers, no divisor of a remainder being nought when the
names stand for given whole numbers. Then it has a term, and the tree has an exact value. An
evaluation with names bound to these numbers finds the exact value if nothing but remainders could
be rounded in it. The parts of the tree all have the values of their terms exactly if for each
remainder the divisor divides the dividend or both are of one sign; the whole tree then has, too. -/
theorem symbolic_agrees_iff (e : Expression) {t : Tree} (wf : t.WellFormed)
    (listed : t.postorder = e.tokens) (integral : ∀ u ∈ e.tokens, u.IsIntegral)
    (env : String → ℤ) (divisors : ∀ d ∈ t.divisions env, d.2 ≠ 0) :
    ∃ term p, e.symbolic = .ok term ∧ t.value (integers env) = .ok p ∧
      ((∀ n, .name n ∈ e.tokens →
          ∃ x, e.bindings.value? n = some x ∧ Binary64.IsWhole x ∧ Binary64.whole x = env n) →
        (∀ a ∈ t.applications e.reading,
          a.1 ≠ .operator (.builtin .modulo) → a.1.Exact a.2) →
        ∀ level, ∃ x, (e.evaluate level).2 = .ok x ∧ Binary64.IsWhole x ∧
          Binary64.whole x = p) ∧
      ((∀ s ∈ t.subtrees, s.AgreesWithTerm env) ↔ ∀ d ∈ t.divisions env, SameRemainder d.1 d.2) ∧
      ((∀ d ∈ t.divisions env, SameRemainder d.1 d.2) → term.rational env = p) := by
  have index : ∀ op, .operation op ∈ e.tokens → op.count.isIndex = true := by
    intro op hop
    obtain ⟨o, rfl, -⟩ := (integral _ hop).builtin
    rfl
  obtain ⟨term, hterm⟩ := t.value_ok wf (symbolic_totalOn t.postorder)
  obtain ⟨p, hp⟩ := t.value_ok wf (integers_totalOn env t.postorder)
  have parts := t.agreesWithTerm_subtrees_iff wf (listed ▸ integral) divisors
  refine ⟨term, p, (symbolic_eq_ok_iff wf listed).mpr ⟨index, hterm⟩, hp, ?_, parts, ?_⟩
  · intro bound exactly level
    obtain ⟨x, q, hx, hq, whole, same⟩ :=
      t.whole_value wf (listed ▸ integral) (listed ▸ bound) exactly divisors
    obtain rfl : q = p := Except.ok.inj (hq.symm.trans hp)
    have served : ∀ op, .operation op ∈ t.postorder → op.count.servedBy e.pool.size = true := by
      intro op hop
      obtain ⟨o, rfl, -⟩ := (integral _ (listed ▸ hop)).builtin
      exact Count.servedBy_whole ..
    exact ⟨x, (evaluate_postorder level wf listed.symm hx served).1, whole, same⟩
  · intro alike
    obtain ⟨term', q, hterm', hq, value⟩ := parts.mpr alike t t.mem_subtrees_self
    obtain rfl : term' = term := Except.ok.inj (hterm'.symm.trans hterm)
    obtain rfl : q = p := Except.ok.inj (hq.symm.trans hp)
    exact value

def remainderTree : Tree :=
  .node (.operator (.builtin .multiply))
    [.number 2.0, .node (.operator (.builtin .modulo))
      [.name "x", .node (.operator (.builtin .negate)) [.number 3.0]]]

def remainderOfSeven : Expression :=
  { ofTokens remainderTree.postorder [] {} with
    bindings := Bindings.empty.set (.text "x") (-7.0) }

theorem symbolic_agrees_iff_negative : ∃ term x,
    remainderOfSeven.symbolic = .ok term ∧ term.rational (fun _ => -7) = (-2 : ℤ) ∧
      (remainderOfSeven.evaluate .silent).2 = .ok x ∧ Binary64.whole x = -2 := by
  have two : Binary64.IsWhole 2.0 ∧ Binary64.whole 2.0 = 2 :=
    Binary64.isWhole_of_shifted false 2 51 rfl
  have three : Binary64.IsWhole 3.0 ∧ Binary64.whole 3.0 = 3 :=
    Binary64.isWhole_of_shifted false 3 51 rfl
  have seven : Binary64.IsWhole (-7.0) ∧ Binary64.whole (-7.0) = -7 :=
    Binary64.isWhole_of_shifted true 7 50 rfl
  have wf : remainderTree.WellFormed :=
    ⟨rfl, trivial, ⟨rfl, trivial, ⟨rfl, trivial, trivial⟩, trivial⟩, trivial⟩
  have integral : ∀ u ∈ remainderTree.postorder, u.IsIntegral := by
    simp only [remainderTree, Tree.postorder, Tree.postorderAll, List.append_nil,
      List.cons_append, List.nil_append, List.forall_mem_cons, List.not_mem_nil, false_implies,
      implies_true, and_true]
    exact ⟨two.1, trivial, three.1, rfl, rfl, rfl⟩
  have divisions : remainderTree.divisions (fun _ => -7) = [(-7, -3)] :=
    congrArg (fun q : ℤ => [((-7 : ℤ), -q)]) three.2
  have value : remainderTree.value (integers fun _ => -7) =
      .ok (Binary64.whole 2.0 * (-7 : ℤ).tmod (-Binary64.whole 3.0)) := rfl
  obtain ⟨term, p, hterm, hp, evaluates, -, agrees⟩ :=
    symbolic_agrees_iff remainderOfSeven wf rfl integral (fun _ => -7)
      (by rw [divisions]; decide)
  obtain rfl : p = -2 := by
    rw [value, two.2, three.2] at hp
    exact (Except.ok.inj hp).symm
  have bound : ∀ n, .name n ∈ remainderOfSeven.tokens →
      ∃ x, remainderOfSeven.bindings.value? n = some x ∧ Binary64.IsWhole x ∧
        Binary64.whole x = -7 := by
    intro n hn
    obtain rfl : n = "x" := by
      simpa [remainderOfSeven, ofTokens, remainderTree, Tree.postorder, Tree.postorderAll] using hn
    exact ⟨-7.0, rfl, seven⟩
  have applications : remainderTree.applications remainderOfSeven.reading =
      [(.operator (.builtin .negate), [3.0]), (.operator (.builtin .modulo), [-7.0, -3.0]),
        (.operator (.builtin .multiply), [2.0, -1.0])] := rfl
  have negates : Operation.Exact (.operator (.builtin .negate)) [3.0] := by
    rintro _ ⟨⟩
    have negated : Binary64.IsWhole (-3.0) ∧ Binary64.whole (-3.0) = -3 :=
      Binary64.isWhole_of_shifted true 3 51 rfl
    exact ⟨negated.1, negated.2.trans (congrArg Neg.neg three.2.symm)⟩
  have multiplies : Operation.Exact (.operator (.builtin .multiply)) [2.0, -1.0] := by
    rintro _ ⟨⟩
    have left : Binary64.IsWhole (-1.0) ∧ Binary64.whole (-1.0) = -1 :=
      Binary64.isWhole_of_shifted true 1 52 rfl
    have product : Binary64.IsWhole (2.0 * -1.0) ∧ Binary64.whole (2.0 * -1.0) = -2 :=
      Binary64.isWhole_of_shifted true 2 51 rfl
    refine ⟨product.1, product.2.trans ?_⟩
    exact (congrArg₂ (· * ·) two.2 left.2 : Binary64.whole 2.0 * Binary64.whole (-1.0) = -2).symm
  obtain ⟨x, hx, -, found⟩ := evaluates bound (by
    rw [applications]
    simp only [List.forall_mem_cons, List.not_mem_nil, false_implies, implies_true, and_true]
    exact ⟨fun _ => negates, fun h => absurd rfl h, fun _ => multiplies⟩) .silent
  refine ⟨term, x, hterm, agrees ?_, hx, found⟩
  rw [divisions]
  exact List.forall_mem_singleton.mpr (.inr (by decide))

def mixedTree : Tree :=
  .node (.operator (.builtin .modulo)) [.number (-7.0), .number 3.0]

/-- Minus seven by three leaves minus one, and two by the term. -/
theorem symbolic_mixed :
    mixedTree.WellFormed ∧ (∀ u ∈ mixedTree.postorder, u.IsIntegral) ∧
      (∀ d ∈ mixedTree.divisions (fun _ => 0), d.2 ≠ 0) ∧
      ((ofTokens mixedTree.postorder [] {}).evaluate .silent).2 = .ok (-1.0) ∧
      mixedTree.value (integers fun _ => 0) = .ok (-1) ∧
      (ofTokens mixedTree.postorder [] {}).symbolic = .ok (.mod (.real (-7.0)) (.real 3.0)) ∧
      (Symbolic.mod (.real (-7.0)) (.real 3.0)).rational (fun _ => 0) = 2 := by
  classical
  have three : Binary64.IsWhole 3.0 ∧ Binary64.whole 3.0 = 3 :=
    Binary64.isWhole_of_shifted false 3 51 rfl
  have seven : Binary64.IsWhole (-7.0) ∧ Binary64.whole (-7.0) = -7 :=
    Binary64.isWhole_of_shifted true 7 50 rfl
  have value : mixedTree.value (integers fun _ => 0) =
      .ok ((Binary64.whole (-7.0)).tmod (Binary64.whole 3.0)) := rfl
  have integral : ∀ u ∈ mixedTree.postorder, u.IsIntegral := by
    simp only [mixedTree, Tree.postorder, Tree.postorderAll, List.append_nil, List.cons_append,
      List.nil_append, List.forall_mem_cons, List.not_mem_nil, false_implies, implies_true,
      and_true]
    exact ⟨seven.1, three.1, rfl⟩
  have divisions : mixedTree.divisions (fun _ => 0) = [(-7, 3)] :=
    congrArg₂ (fun p q : ℤ => [(p, q)]) seven.2 three.2
  refine ⟨⟨rfl, trivial, trivial, trivial⟩, integral, by rw [divisions]; decide, rfl,
    by rw [value, seven.2, three.2]; rfl, rfl, ?_⟩
  have mixed : ¬ SameRemainder (-7) 3 := by
    unfold SameRemainder
    decide
  rw [Symbolic.rational, Symbolic.rational, Symbolic.rational, ← seven.1.2, ← three.1.2, seven.2,
    three.2, floored_remainder, if_neg mixed]
  exact congrArg Int.cast (by decide : (-7 : ℤ).tmod 3 + 3 = 2)

end Expression

end ReversePolish

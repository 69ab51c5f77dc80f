/-
What a term keeps by name alone. A built-in operation takes its own form in a
term, whose applications by name are those of its arguments and no others
(`appliedNodes_ofOperator`, `appliedNodes_ofFunction`). What the caller defined
is applied by name, but for an operator that has the symbol and the number of
operands of a built-in one: that is taken for it. So the applications by name
in the term of a tree are the tree's applications of what the caller defined
exactly if there is no such operator (`Expression.appliedNodes_symbolic`).
-/
import ReversePolish.Proofs.Meaning

namespace ReversePolish
namespace Symbolic

mutual

/-- The applications by name in a term, in postfix order: each name with its arguments. -/
def appliedNodes : Symbolic → List (String × List Symbolic)
  | .add a b => a.appliedNodes ++ b.appliedNodes
  | .mul a b => a.appliedNodes ++ b.appliedNodes
  | .pow a b => a.appliedNodes ++ b.appliedNodes
  | .mod a b => a.appliedNodes ++ b.appliedNodes
  | .call _ a => a.appliedNodes
  | .logBase a base => a.appliedNodes ++ base.appliedNodes
  | .applied name args => appliedNodesAll args ++ [(name, args)]
  | _ => []

def appliedNodesAll : List Symbolic → List (String × List Symbolic)
  | [] => []
  | a :: rest => a.appliedNodes ++ appliedNodesAll rest

end

def operatorForm : BuiltinOperator → List Symbolic → Symbolic
  | .add, [a, b] => .add a b
  | .subtract, [a, b] => .add a (.mul (.whole (-1)) b)
  | .multiply, [a, b] => .mul a b
  | .divide, [a, b] => .mul a (.pow b (.whole (-1)))
  | .power, [a, b] => .pow a b
  | .modulo, [a, b] => .mod a b
  | .negate, [a] => .mul (.whole (-1)) a
  | .plus, [a] => a
  | _, _ => .undefined

def builtinForm : Operation → List Symbolic → Symbolic
  | .operator (.builtin o), args => operatorForm o args
  | .function (.builtin f), args => ofFunction f args
  | _, _ => .undefined

/-! ## Forms of built-in operations -/

/-- The symbol and the number of operands tell the built-in operators apart. -/
theorem ofOperator_symbol {o : BuiltinOperator} {args : List Symbolic}
    (length : args.length = o.arity) : ofOperator o.symbol args = operatorForm o args := by
  cases o with
  | negate | plus =>
    obtain ⟨a, rfl⟩ := List.length_eq_one_iff.mp length
    rfl
  | add | subtract | multiply | divide | power | modulo =>
    obtain ⟨a, b, rfl⟩ := List.length_eq_two.mp length
    rfl

theorem appliedNodes_operatorForm {o : BuiltinOperator} {args : List Symbolic}
    (length : args.length = o.arity) :
    (operatorForm o args).appliedNodes = appliedNodesAll args := by
  cases o with
  | negate | plus =>
    obtain ⟨a, rfl⟩ := List.length_eq_one_iff.mp length
    simp [operatorForm, appliedNodes, appliedNodesAll]
  | add | subtract | multiply | divide | power | modulo =>
    obtain ⟨a, b, rfl⟩ := List.length_eq_two.mp length
    simp [operatorForm, appliedNodes, appliedNodesAll]

theorem appliedNodes_successor (a : Symbolic) : (successor a).appliedNodes = a.appliedNodes := by
  unfold successor
  split <;> simp [appliedNodes]

theorem appliedNodes_scaled (a : Symbolic) {factor divisor : Symbolic}
    (plain : factor.appliedNodes = []) (plain' : divisor.appliedNodes = []) :
    (scaled a factor divisor).appliedNodes = a.appliedNodes := by
  unfold scaled
  split
  · rfl
  · simp [appliedNodes, inverse, plain, plain']

theorem appliedNodes_ofUnary {f : BuiltinFunction} (single : f.arity = 1) (x : Symbolic) :
    (ofUnary f x).appliedNodes = x.appliedNodes := by
  cases f with
  | logb | pow => cases single
  | log1p => exact appliedNodes_successor x
  | toradian | todegree => exact appliedNodes_scaled x rfl rfl
  | _ => simp [ofUnary, appliedNodes]

theorem appliedNodes_ofFunction {f : BuiltinFunction} {args : List Symbolic}
    (length : args.length = f.arity) :
    (ofFunction f args).appliedNodes = appliedNodesAll args := by
  by_cases single : f.arity = 1
  · obtain ⟨x, rfl⟩ := List.length_eq_one_iff.mp (length.trans single)
    have unary : ofFunction f [x] = ofUnary f x := by
      cases f <;> rfl
    rw [unary, appliedNodes_ofUnary single, appliedNodesAll, appliedNodesAll, List.append_nil]
  · have two : f = .logb ∨ f = .pow := by
      cases f <;> simp [BuiltinFunction.arity] at single ⊢
    rcases two with rfl | rfl
    all_goals
      obtain ⟨a, b, rfl⟩ := List.length_eq_two.mp length
      simp [ofFunction, appliedNodes, appliedNodesAll]

end Symbolic

/-! ## Operations -/

namespace Operation

/-- The built-in operator whose symbol and number of operands an operator of the caller's has. -/
def namesake? : Operation → Option BuiltinOperator
  | .operator (.defined d) => BuiltinOperator.find? d.symbol d.operands.toNat
  | _ => none

theorem namesake?_eq_some {op : Operation} {o : BuiltinOperator} (h : op.namesake? = some o) :
    ∃ d, op = .operator (.defined d) ∧ o.symbol = d.symbol ∧ op.arity = o.arity := by
  match op, h with
  | .operator (.defined d), h =>
    have found : o.symbol = d.symbol ∧ o.arity = d.operands.toNat := by
      simpa using List.find?_some h
    exact ⟨d, rfl, found.1, found.2.symm⟩

/-- Is it of the caller's own making, and no operator that could be taken for a built-in one? -/
def staysNamed (op : Operation) : Bool := op.isDefined && op.namesake?.isNone

end Operation

namespace Symbolic

theorem application_staysNamed {op : Operation} (h : op.staysNamed = true) {args : List Symbolic}
    (length : args.length = op.arity) : application op args = .applied op.name args := by
  match op, h, length with
  | .operator (.defined d), h, length =>
    refine Semantics.ofOperator_applied ?_
    rw [length]
    exact Option.isNone_iff_eq_none.mp (Bool.and_eq_true_iff.mp h).2
  | .function (.defined d), _, _ => rfl

theorem application_builtin {op : Operation} (h : op.isDefined = false) {args : List Symbolic}
    (length : args.length = op.arity) : application op args = builtinForm op args := by
  match op, h, length with
  | .operator (.builtin o), _, length => exact ofOperator_symbol length
  | .function (.builtin f), _, _ => rfl

theorem application_namesake {op : Operation} {o : BuiltinOperator} (h : op.namesake? = some o)
    {args : List Symbolic} (length : args.length = op.arity) :
    application op args = operatorForm o args := by
  obtain ⟨d, rfl, symbol, arity⟩ := op.namesake?_eq_some h
  rw [← ofOperator_symbol (length.trans arity), symbol]
  rfl

/-- **An application adds itself to what is applied by name, or nothing.** -/
theorem appliedNodes_application {op : Operation} {args : List Symbolic}
    (length : args.length = op.arity) :
    (application op args).appliedNodes =
      appliedNodesAll args ++ if op.staysNamed then [(op.name, args)] else [] := by
  cases named : op.staysNamed with
  | true => rw [application_staysNamed named length, appliedNodes, if_pos rfl]
  | false =>
    rw [if_neg Bool.false_ne_true, List.append_nil]
    cases made : op.isDefined with
    | false =>
      rw [application_builtin made length]
      match op, made, length with
      | .operator (.builtin o), _, length => exact appliedNodes_operatorForm length
      | .function (.builtin f), _, length => exact appliedNodes_ofFunction length
    | true =>
      rw [Operation.staysNamed, made, Bool.true_and] at named
      cases found : op.namesake? with
      | none => rw [found] at named; cases named
      | some o =>
        rw [application_namesake found length]
        obtain ⟨d, rfl, -, arity⟩ := op.namesake?_eq_some found
        exact appliedNodes_operatorForm (length.trans arity)

def byName (p : Operation → Bool) (made : List (Operation × List Symbolic)) :
    List (String × List Symbolic) :=
  (made.filter fun a => p a.1).map fun a => (a.1.name, a.2)

theorem byName_append (p : Operation → Bool) (made later : List (Operation × List Symbolic)) :
    byName p (made ++ later) = byName p made ++ byName p later := by
  simp [byName]

/-- Fewer operations pass only if one that is applied does not. -/
theorem byName_eq_iff {p q : Operation → Bool} (stronger : ∀ op, p op = true → q op = true)
    (made : List (Operation × List Symbolic)) :
    byName p made = byName q made ↔ ∀ a ∈ made, q a.1 = true → p a.1 = true := by
  have nested : (made.filter fun a => q a.1).filter (fun a => p a.1) =
      made.filter fun a => p a.1 := by
    rw [List.filter_filter]
    refine List.filter_congr fun a _ => ?_
    cases h : p a.1 with
    | false => rfl
    | true => rw [stronger a.1 h]; rfl
  constructor
  · intro same a ha hq
    have lengths := congrArg List.length same
    simp only [byName, List.length_map] at lengths
    rw [← nested, List.length_filter_eq_length_iff] at lengths
    exact lengths a (List.mem_filter.mpr ⟨ha, hq⟩)
  · intro all
    simp only [byName]
    rw [← nested, List.filter_eq_self.mpr]
    intro a ha
    obtain ⟨hm, hq⟩ := List.mem_filter.mp ha
    exact all a hm hq

end Symbolic

/-! ## Terms of trees -/

namespace Tree

theorem appliedNodes_valueAll {ts : List Tree} {terms : List Symbolic}
    (each : ∀ t ∈ ts, ∀ term, t.value Symbolic.interpretation = .ok term →
      term.appliedNodes = Symbolic.byName Operation.staysNamed
        (t.applications Symbolic.interpretation))
    (h : valueAll Symbolic.interpretation ts = .ok terms) :
    Symbolic.appliedNodesAll terms = Symbolic.byName Operation.staysNamed
      (applicationsAll Symbolic.interpretation ts) := by
  have all := forall₂_of_valueAll h
  clear h
  induction all with
  | nil => rfl
  | @cons t term rest later one _ ih =>
    rw [Symbolic.appliedNodesAll, applicationsAll, Symbolic.byName_append,
      each t (List.mem_cons_self ..) term one, ih fun u hu => each u (List.mem_cons_of_mem t hu)]

/-- **What is applied by name in the term of a tree** are the tree's applications of operations
that stay named, each once and in order. -/
theorem appliedNodes_value (t : Tree) (wf : t.WellFormed) {term : Symbolic}
    (h : t.value Symbolic.interpretation = .ok term) :
    term.appliedNodes =
      Symbolic.byName Operation.staysNamed (t.applications Symbolic.interpretation) := by
  induction t using inductionOn generalizing term with
  | number x =>
    cases h
    simp only [Symbolic.interpretation, Symbolic.ofNumber]
    split
    · rfl
    · rfl
    · split <;> rfl
  | name n => cases h; rfl
  | node op args ih =>
    rw [value] at h
    cases terms : valueAll Symbolic.interpretation args with
    | error e => rw [terms] at h; cases h
    | ok found =>
      rw [terms] at h
      cases h
      have parts := appliedNodes_valueAll
        (fun a ha _ => ih a ha (allWellFormed_iff.mp wf.2 a ha)) terms
      rw [Symbolic.appliedNodes_application ((length_valueAll terms).trans wf.1), parts,
        applications, terms, Symbolic.byName_append]
      simp only [Symbolic.byName, List.filter_cons, List.filter_nil]
      split <;> rfl

theorem applications_listed {α : Type u} {I : Interpretation α} {t : Tree} (wf : t.WellFormed)
    (index : ∀ op, .operation op ∈ t.postorder → op.count.isIndex = true) {v : α}
    (h : t.value I = .ok v) :
    (t.applications I).map Prod.fst = t.postorder.filterMap Token.operation? ∧
      ∀ a ∈ t.applications I, a.2.length = a.1.arity := by
  obtain ⟨steps, made⟩ := read_postorder t [] wf index h
  rw [← made]
  exact ⟨I.applications_operations steps, fun a ha => (Interpretation.mem_applications ha).2⟩

end Tree

namespace Expression

/-- **What the caller defined stays named in a term.** An expression that lists a tree has a term
exactly if all counts are places in a sequence. The term is the one that the tree has by recursion;
each application of a built-in operation has the form of that operation, and each of what the
caller defined is the application of its name, unless it is an operator with the symbol and the
number of operands of a built-in one. There is none of these exactly if the applications by name in
the term are, in order, those of all that the caller defined. -/
theorem appliedNodes_symbolic (e : Expression) {t : Tree} (wf : t.WellFormed)
    (listed : t.postorder = e.tokens) :
    ((∃ term, e.symbolic = .ok term) ↔ ∀ op, .operation op ∈ e.tokens → op.count.isIndex = true) ∧
      ∀ term, e.symbolic = .ok term →
        t.value Symbolic.interpretation = .ok term ∧
        (∀ a ∈ t.applications Symbolic.interpretation,
          (a.1.isDefined = false → Symbolic.interpretation.apply a.1 a.2 =
            .ok (Symbolic.builtinForm a.1 a.2)) ∧
          (a.1.isDefined = true → a.1.namesake? = none →
            Symbolic.interpretation.apply a.1 a.2 = .ok (.applied a.1.name a.2))) ∧
        (term.appliedNodes = Symbolic.byName Operation.isDefined
            (t.applications Symbolic.interpretation) ↔
          ∀ op, .operation op ∈ e.tokens → op.namesake? = none) := by
  obtain ⟨found, hfound⟩ := t.value_ok wf (symbolic_totalOn t.postorder)
  refine ⟨⟨fun ⟨term, h⟩ => ((symbolic_eq_ok_iff wf listed).mp h).1, fun index =>
    ⟨found, (symbolic_eq_ok_iff wf listed).mpr ⟨index, hfound⟩⟩⟩, fun term h => ?_⟩
  obtain ⟨index, value⟩ := (symbolic_eq_ok_iff wf listed).mp h
  obtain ⟨operations, lengths⟩ := Tree.applications_listed wf (listed ▸ index) value
  refine ⟨value, fun a ha => ⟨fun made => ?_, fun made none => ?_⟩, ?_⟩
  · exact congrArg Except.ok (Symbolic.application_builtin made (lengths a ha))
  · refine congrArg Except.ok (Symbolic.application_staysNamed ?_ (lengths a ha))
    rw [Operation.staysNamed, made, none]
    rfl
  · have stronger (op : Operation) (h : op.staysNamed = true) : op.isDefined = true :=
      (Bool.and_eq_true_iff.mp h).1
    rw [t.appliedNodes_value wf value, Symbolic.byName_eq_iff stronger]
    constructor
    · intro stays op hop
      have applied : op ∈ (t.applications Symbolic.interpretation).map Prod.fst := by
        rw [operations, listed]
        exact List.mem_filterMap.mpr ⟨.operation op, hop, rfl⟩
      obtain ⟨a, ha, rfl⟩ := List.mem_map.mp applied
      cases made : a.1.isDefined with
      | true => exact Option.isNone_iff_eq_none.mp (Bool.and_eq_true_iff.mp (stays a ha made)).2
      | false =>
        -- Only operators of the caller's have namesakes.
        match a.1, made with
        | .operator (.builtin _), _ => rfl
        | .function (.builtin _), _ => rfl
    · intro none a ha made
      have listedOp : a.1 ∈ e.tokens.filterMap Token.operation? := by
        rw [← listed, ← operations]
        exact List.mem_map_of_mem ha
      obtain ⟨u, hu, hop⟩ := List.mem_filterMap.mp listedOp
      have token : u = .operation a.1 := by
        cases u <;> simp_all [Token.operation?]
      rw [Operation.staysNamed, made, none a.1 (token ▸ hu)]
      rfl

/-- A function of the caller's with the name of a built-in one, and the built-in one itself. -/
def mimicSine : Operation := .function (.defined ⟨0, "sin", .whole 1, some Kernel.first⟩)

def sine : Operation := .function (.builtin .sin)

theorem binary_whole : (Count.whole 2).toNat = 1 ∨ (Count.whole 2).toNat = 2 := .inr rfl

/-- An operator whose symbol no built-in operator has. -/
def unequal : Operation :=
  .operator (.defined
    ⟨1, "<>", .whole 2, .truth true, .whole 500, some Kernel.differs, binary_whole⟩)

def unequalTree : Tree := .node unequal [.node mimicSine [.name "x"], .node sine [.name "x"]]

theorem appliedNodes_symbolic_unequal : ∃ term,
    (ofTokens unequalTree.postorder [] {}).symbolic = .ok term ∧
      term.appliedNodes = [("sin", [.symbol "x"]),
        ("<>", [.applied "sin" [.symbol "x"], .call .sin (.symbol "x")])] := by
  have wf : unequalTree.WellFormed := by
    simp only [unequalTree, Tree.WellFormed, Tree.AllWellFormed, and_true]
    exact ⟨rfl, rfl, rfl⟩
  have cases : ∀ op, .operation op ∈ unequalTree.postorder →
      op = mimicSine ∨ op = sine ∨ op = unequal := by
    intro op hop
    simpa [unequalTree, Tree.postorder, Tree.postorderAll] using hop
  have index : ∀ op, .operation op ∈ unequalTree.postorder → op.count.isIndex = true := by
    intro op hop
    rcases cases op hop with rfl | rfl | rfl <;> rfl
  have unlike : ∀ op, .operation op ∈ unequalTree.postorder → op.namesake? = none := by
    intro op hop
    rcases cases op hop with rfl | rfl | rfl <;> rfl
  obtain ⟨terms, named⟩ :=
    appliedNodes_symbolic (ofTokens unequalTree.postorder [] {}) wf rfl
  obtain ⟨term, h⟩ := terms.mpr index
  exact ⟨term, h, (named term h).2.2.mpr unlike⟩

/-- An operator of the caller's own that is written like a sum and computes a difference. -/
def falseSum : Operation :=
  .operator (.defined
    ⟨0, "+", .whole 2, .truth true, .whole 500, some Kernel.difference, binary_whole⟩)

/-- It becomes a sum in a term, which applies nothing by name. -/
theorem symbolic_falseSum :
    falseSum.isDefined = true ∧ (Tree.node falseSum [.name "x", .name "y"]).WellFormed ∧
      (Tree.node falseSum [.name "x", .name "y"]).applications Symbolic.interpretation =
        [(falseSum, [.symbol "x", .symbol "y"])] ∧
      (ofTokens (Tree.node falseSum [.name "x", .name "y"]).postorder [] {}).symbolic =
        .ok (.add (.symbol "x") (.symbol "y")) ∧
      (Symbolic.add (.symbol "x") (.symbol "y")).appliedNodes = [] :=
  ⟨rfl, ⟨rfl, trivial, trivial, trivial⟩, rfl, rfl, rfl⟩

end Expression
end ReversePolish

/-
Which variables an expression has. Four parts of the program look for them:
the list of names, the evaluation, the check of what is bound, and the term.
They agree (`Expression.coincidence`): what is bound under other names changes
neither the evaluation nor the check, and the term of a tree has just the
listed names for its symbols.
-/
import ReversePolish.Proofs.Parsing
import ReversePolish.Proofs.Opacity
import ReversePolish.Proofs.Script

namespace ReversePolish

/-! ## The list of names -/

/-- The place of the first token of a variable. -/
def firstPlace (ts : List Token) (n : String) : Nat := ts.findIdx fun t => t.variableName? == some n

theorem mem_variableNames {ts : List Token} {n : String} :
    n ∈ variableNames ts ↔ .name n ∈ ts := by
  rw [variableNames, List.mem_eraseDups, List.mem_filterMap]
  constructor
  · rintro ⟨t, ht, same⟩
    cases t with
    | name m =>
      cases same
      exact ht
    | number x => cases same
    | operation op => cases same
  · exact fun h => ⟨_, h, rfl⟩

theorem variableNames_concat (ts : List Token) (t : Token) :
    variableNames (ts ++ [t]) = variableNames ts ∨
      ∃ n, t.variableName? = some n ∧ n ∉ variableNames ts ∧
        variableNames (ts ++ [t]) = variableNames ts ++ [n] := by
  simp only [variableNames, List.filterMap_append, List.eraseDups_append]
  cases name : t.variableName? with
  | none =>
    refine .inl ?_
    simp [name, List.removeAll]
  | some n =>
    by_cases old : n ∈ ts.filterMap Token.variableName?
    · refine .inl ?_
      simp [name, List.removeAll, List.mem_filterMap.mp old]
    · refine .inr ⟨n, rfl, fun h => old (List.mem_eraseDups.mp h), ?_⟩
      have new : ¬ ∃ u ∈ ts, u.variableName? = some n := fun h => old (List.mem_filterMap.mpr h)
      simp [name, List.removeAll, new, List.eraseDups_cons]

theorem firstPlace_lt_iff {ts : List Token} {n : String} :
    firstPlace ts n < ts.length ↔ n ∈ variableNames ts := by
  rw [firstPlace, List.findIdx_lt_length, variableNames, List.mem_eraseDups, List.mem_filterMap]
  simp only [beq_iff_eq]

theorem firstPlace_append {ts : List Token} {n : String} (h : n ∈ variableNames ts)
    (later : List Token) : firstPlace (ts ++ later) n = firstPlace ts n := by
  rw [firstPlace, List.findIdx_append]
  exact if_pos (firstPlace_lt_iff.mpr h)

/-- **The names are listed in the order in which they first occur.** -/
theorem variableNames_inOrder (ts : List Token) :
    (variableNames ts).Pairwise fun m n => firstPlace ts m < firstPlace ts n := by
  induction ts using List.reverseRecOn with
  | nil => exact .nil
  | append_singleton ts t ih =>
    have before : (variableNames ts).Pairwise fun m n =>
        firstPlace (ts ++ [t]) m < firstPlace (ts ++ [t]) n := by
      refine ih.imp_of_mem fun hm hn less => ?_
      rw [firstPlace_append hm, firstPlace_append hn]
      exact less
    rcases variableNames_concat ts t with same | ⟨n, name, new, more⟩
    · rw [same]
      exact before
    · rw [more]
      refine List.pairwise_append.mpr ⟨before, List.pairwise_singleton .., fun m hm last hl => ?_⟩
      cases List.mem_singleton.mp hl
      rw [firstPlace_append hm]
      have absent : ¬ firstPlace ts n < ts.length := fun h => new (firstPlace_lt_iff.mp h)
      have behind : ts.length ≤ firstPlace (ts ++ [t]) n := by
        rw [firstPlace, List.findIdx_append, ← firstPlace, if_neg absent]
        exact Nat.le_add_left ..
      exact Nat.lt_of_lt_of_le (firstPlace_lt_iff.mpr hm) behind

theorem nodup_variableNames (ts : List Token) : (variableNames ts).Nodup :=
  (variableNames_inOrder ts).imp fun {_ _} less same =>
    absurd (congrArg (firstPlace ts) same) (Nat.ne_of_lt less)

/-! ## Evaluation and check -/

section
variable {value? other? : String → Option Float} {ts : List Token}

/-- What is read of a sequence depends on the values of its names alone. -/
theorem reading_congr (agree : ∀ n, .name n ∈ ts → value? n = other? n) (stack : List Float) :
    (valuation value?).steps stack ts = (valuation other?).steps stack ts ∧
      (valuation value?).applications stack ts = (valuation other?).applications stack ts := by
  induction ts generalizing stack with
  | nil => exact ⟨rfl, rfl⟩
  | cons t rest ih =>
    have one : (valuation value?).step stack t = (valuation other?).step stack t := by
      cases t with
      | number x => rfl
      | name n =>
        have same := agree n (List.mem_cons_self ..)
        simp only [Interpretation.step, valuation, same]
      | operation op => rfl
    simp only [Interpretation.steps, Interpretation.applications, one]
    cases (valuation other?).step stack t with
    | error cause => exact ⟨rfl, rfl⟩
    | ok next =>
      obtain ⟨steps, applications⟩ := ih (fun n hn => agree n (List.mem_cons_of_mem t hn)) next
      exact ⟨steps, congrArg _ applications⟩

end

/-! ## Symbols of terms -/

namespace Symbolic

theorem symbols_ofNumber (x : Float) : (ofNumber x).symbols = [] := by
  unfold ofNumber
  split
  · rfl
  · rfl
  · split <;> rfl

theorem symbols_ofOperator (symbol : String) (args : List Symbolic) :
    (ofOperator symbol args).symbols = symbolsAll args := by
  unfold ofOperator
  split <;> simp [negated, inverse, symbols, symbolsAll]

theorem symbols_successor (a : Symbolic) : (successor a).symbols = a.symbols := by
  unfold successor
  split <;> simp [symbols]

theorem symbols_scaled (a : Symbolic) {factor divisor : Symbolic} (left : factor.symbols = [])
    (right : divisor.symbols = []) : (scaled a factor divisor).symbols = a.symbols := by
  unfold scaled
  split
  · rfl
  · simp [inverse, symbols, left, right]

theorem symbols_ofUnary (f : BuiltinFunction) (x : Symbolic) :
    (ofUnary f x).symbols = x.symbols := by
  cases f with
  | log1p => exact symbols_successor x
  | toradian => exact symbols_scaled x rfl rfl
  | todegree => exact symbols_scaled x rfl rfl
  | _ => simp [ofUnary, symbols, symbolsAll]

theorem symbols_ofFunction (f : BuiltinFunction) (args : List Symbolic) :
    (ofFunction f args).symbols = symbolsAll args := by
  unfold ofFunction
  split
  · simp [symbols, symbolsAll]
  · simp [symbols, symbolsAll]
  · simp [symbols_ofUnary, symbolsAll]
  · rfl

/-- **No application drops or repeats a symbol of its arguments.** -/
theorem symbols_application (op : Operation) (args : List Symbolic) :
    (application op args).symbols = symbolsAll args := by
  cases op with
  | operator o => exact symbols_ofOperator o.symbol args
  | function f =>
    cases f with
    | builtin f => exact symbols_ofFunction f args
    | defined d => rfl

end Symbolic

namespace Tree

theorem symbols_valueAll {ts : List Tree} {terms : List Symbolic}
    (each : ∀ t ∈ ts, ∀ term, t.value Symbolic.interpretation = .ok term →
      term.symbols = t.postorder.filterMap Token.variableName?)
    (h : valueAll Symbolic.interpretation ts = .ok terms) :
    Symbolic.symbolsAll terms = (postorderAll ts).filterMap Token.variableName? := by
  have all := forall₂_of_valueAll h
  clear h
  induction all with
  | nil => rfl
  | @cons t term rest later one _ ih =>
    rw [Symbolic.symbolsAll, postorderAll, List.filterMap_append,
      each t (List.mem_cons_self ..) term one, ih fun u hu => each u (List.mem_cons_of_mem t hu)]

/-- **The symbols of the term of a tree** are the names of its variables, as they come. -/
theorem symbols_value (t : Tree) {term : Symbolic}
    (h : t.value Symbolic.interpretation = .ok term) :
    term.symbols = t.postorder.filterMap Token.variableName? := by
  induction t using inductionOn generalizing term with
  | number x =>
    cases h
    exact Symbolic.symbols_ofNumber x
  | name n =>
    cases h
    rfl
  | node op args ih =>
    simp only [value] at h
    cases ha : valueAll Symbolic.interpretation args with
    | error e => rw [ha] at h; cases h
    | ok terms =>
      rw [ha] at h
      cases h
      rw [Symbolic.symbols_application,
        symbols_valueAll (fun a hm term h => ih a hm h) ha, postorder, List.filterMap_append]
      exact (List.append_nil _).symm

end Tree

namespace Expression

/-- What is bound under the names of an expression decides its check. -/
theorem validate_congr {e e' : Expression} (tokens : e'.tokens = e.tokens)
    (agree : ∀ n ∈ e.variableNames, e'.bindings.value? n = e.bindings.value? n) (flag : Bool) :
    e'.validate (some flag) = e.validate (some flag) := by
  have unbound : Validation.unbound (fun n => e'.bindings.contains (.text n)) e.tokens =
      Validation.unbound (fun n => e.bindings.contains (.text n)) e.tokens := by
    refine List.filterMap_congr fun t ht => ?_
    cases t with
    | name n =>
      have same : e'.bindings.contains (.text n) = e.bindings.contains (.text n) :=
        congrArg Option.isSome (agree n (mem_variableNames.mpr ht))
      exact congrArg (fun bound : Bool => if bound then none else some (Validation.Fault.unbound n))
        same
    | number x => rfl
    | operation op => rfl
  simp only [validate, ReversePolish.validate, Option.getD_some, tokens, unbound]

/-- It decides its evaluation. -/
theorem evaluate_congr {e e' : Expression} (level level' : Log.Level)
    (tokens : e'.tokens = e.tokens) (size : e'.pool.size = e.pool.size)
    (agree : ∀ n ∈ e.variableNames, e'.bindings.value? n = e.bindings.value? n) :
    EvaluateAlike level level' e e' := by
  have named : ∀ n, .name n ∈ e.tokens → e'.bindings.value? n = e.bindings.value? n :=
    fun n hn => agree n (mem_variableNames.mpr hn)
  obtain ⟨steps, applications⟩ := reading_congr named []
  obtain ⟨outcome, calls⟩ := evaluate_eq level e.bindings.value? e.tokens e.stack e.pool
  obtain ⟨outcome', calls'⟩ := evaluate_eq level' e'.bindings.value? e'.tokens e'.stack e'.pool
  rw [tokens, size, applications, Interpretation.fold, steps] at outcome'
  rw [tokens, size, applications] at calls'
  refine ⟨?_, ?_⟩
  · rw [evaluate, evaluate, outcome, tokens, outcome']
    rfl
  · rw [evaluate, evaluate, calls, tokens, calls']

/-- **Only the listed variables matter, and they are those of the term.** Two expressions of the
same tokens that agree on what is bound under the listed names evaluate alike and check alike,
whatever is bound elsewhere. No name is listed twice; listed are the names of variable tokens, in
the order in which they first occur. And an expression that lists a tree has a term whose symbols
are just these, exactly if all counts are places in a sequence. -/
theorem coincidence (e : Expression) :
    (∀ (e' : Expression) (level level' : Log.Level), e'.tokens = e.tokens →
      e'.pool.size = e.pool.size →
      (∀ n ∈ e.variableNames, e'.bindings.value? n = e.bindings.value? n) →
      EvaluateAlike level level' e e' ∧
        ∀ flag, e'.validate (some flag) = e.validate (some flag)) ∧
    (e.variableNames.Nodup ∧ (∀ n, n ∈ e.variableNames ↔ .name n ∈ e.tokens) ∧
      e.variableNames.Pairwise fun m n => firstPlace e.tokens m < firstPlace e.tokens n) ∧
    ∀ t : Tree, t.WellFormed → t.postorder = e.tokens →
      ((∃ term, e.symbolic = .ok term ∧ term.freeSymbols = sorted e.variableNames) ↔
        ∀ op, .operation op ∈ e.tokens → op.count.isIndex = true) := by
  refine ⟨fun e' level level' tokens size agree =>
      ⟨evaluate_congr level level' tokens size agree, validate_congr tokens agree⟩,
    ⟨nodup_variableNames _, fun n => mem_variableNames, variableNames_inOrder _⟩,
    fun t wf listed => ⟨fun ⟨term, h, _⟩ => ((symbolic_eq_ok_iff wf listed).mp h).1,
      fun index => ?_⟩⟩
  obtain ⟨term, value⟩ := t.value_ok wf (symbolic_totalOn t.postorder)
  refine ⟨term, (symbolic_eq_ok_iff wf listed).mpr ⟨index, value⟩, ?_⟩
  rw [Symbolic.freeSymbols, t.symbols_value value, listed]
  rfl

def distracted : Expression := (sample.step .silent (.bind (.text "x") (.real 2.0))).1

theorem coincidence_distracted :
    distracted.bindings.value? "x" = some 2.0 ∧ sample.bindings.value? "x" = none ∧
      EvaluateAlike .silent .verbose sample distracted ∧ sample.variableNames = ["pi", "e"] ∧
      ∃ term, sample.symbolic = .ok term ∧ term.freeSymbols = sorted ["pi", "e"] := by
  obtain ⟨alike, -, symbols⟩ := coincidence sample
  have names : sample.variableNames = ["pi", "e"] := by decide
  have bound : distracted.bindings = sample.bindings.set (.text "x") 2.0 := rfl
  have agree : ∀ n ∈ sample.variableNames,
      distracted.bindings.value? n = sample.bindings.value? n := by
    intro n hn
    have other : n ≠ "x" := by
      rintro rfl
      exact absurd (names ▸ hn) (by decide)
    rw [bound]
    exact Bindings.find?_set_other _ (by simpa using other) _
  refine ⟨rfl, rfl, (alike distracted .silent .verbose rfl rfl agree).1, names, ?_⟩
  rw [← names]
  refine (symbols blendedTree wellFormed_blendedTree rfl).mpr fun op hop => ?_
  rcases operation_mem_blended hop with rfl | rfl | rfl <;> rfl

/-- A tree of an operator whose count was given as a number with a point: a variable is listed, and
there is no term. -/
theorem symbolic_pointed :
    let t := Tree.node Meanings.pointedOperator [.name "x", .number 2.0]
    t.WellFormed ∧ (ofTokens t.postorder [] {}).variableNames = ["x"] ∧
      (ofTokens t.postorder [] {}).symbolic = .error .notSlice :=
  ⟨⟨rfl, trivial, trivial, trivial⟩, by decide, rfl⟩

end Expression
end ReversePolish

/-
What the check of a sequence says is what stops its evaluation. Token by
token the scan and a reading find the same tokens short of values
(`structural_eq_faultsOf`), so where nothing else can stop an evaluation the
faults of the scan tell how it ends, and the other way round.

The scan learns of a missing operand only from the number of values that is
left, and a reading before it takes any. Functions of no arguments are left
out: the scan counts them as if they took one.
-/
import ReversePolish.Proofs.Acceptance

namespace ReversePolish
namespace Validation

/-! ## The texts of faults -/

@[simp] theorem Fault.message_unbound (name : String) :
    (unbound name).message = "The variable '" ++ name ++ "' has not been set" := rfl

@[simp] theorem Fault.message_tooFewArguments (name : String) :
    (tooFewArguments name).message = "Not enough arguments for '" ++ name ++ "'" := rfl

@[simp] theorem Fault.message_tooManyOperators :
    tooManyOperators.message = "Too many operators" := rfl

@[simp] theorem Fault.message_tooManyOperands :
    tooManyOperands.message = "Too many operands" := rfl

theorem Fault.eq_of_message_eq {f g : Fault} (h : f.message = g.message) : f = g := by
  -- Two letters tell which texts they are, but for the two that hold no name.
  have start := congrArg (fun s => s.toList.take 2) h
  cases f with
  | unbound name =>
    cases g with
    | unbound other => simpa using h
    | tooFewArguments other | tooManyOperators | tooManyOperands => simp at start
  | tooFewArguments name =>
    cases g with
    | tooFewArguments other => simpa using h
    | unbound other | tooManyOperators | tooManyOperands => simp at start
  | tooManyOperators | tooManyOperands =>
    cases g with
    | unbound other | tooFewArguments other => simp at start
    | tooManyOperators | tooManyOperands => simp at h ⊢

theorem errors_eq_iff {v : Validation} {faults : List Fault} :
    v.errors = faults.map Fault.message ↔ v.faults = faults :=
  List.map_inj_right fun _ _ => Fault.eq_of_message_eq

/-! ## One token -/

theorem structural_enough {count : Nat} {t : Token} (ts : List Token)
    (enough : t.readUnary.arity ≤ count) :
    structural count (t :: ts) = structural ((count - t.readUnary.arity + 1 : Nat) : Int) ts := by
  have after : balanceAfter count t = ((count - t.readUnary.arity + 1 : Nat) : Int) := by
    rw [balanceAfter_eq]
    omega
  rw [structural_pass ts (by omega), after]

/-- It ends at a token that does not, and names it if it is a function. -/
theorem structural_short {count : Nat} {t : Token} (ts : List Token)
    (short : count < t.readUnary.arity) :
    structural count (t :: ts) = shortage count t ++ [.tooManyOperators] :=
  structural_stop ts (by rw [balanceAfter_eq]; omega)

/-- **The faults of a scan have one of four shapes.** -/
theorem structural_shape (count : Nat) (ts : List Token) :
    structural count ts = [] ∨ structural count ts = [.tooManyOperands] ∨
      structural count ts = [.tooManyOperators] ∨
      ∃ name, structural count ts = [.tooFewArguments name, .tooManyOperators] := by
  induction ts generalizing count with
  | nil =>
    by_cases many : (1 : Int) < count
    · exact .inr (.inl (if_pos many))
    · exact .inl (if_neg many)
  | cons t ts ih =>
    by_cases enough : t.readUnary.arity ≤ count
    · rw [structural_enough ts enough]
      exact ih _
    · rw [structural_short ts (Nat.lt_of_not_le enough)]
      unfold shortage
      split
      next f =>
        split
        · exact .inr (.inr (.inr ⟨f.name, rfl⟩))
        · exact .inr (.inr (.inl rfl))
      next => exact .inr (.inr (.inl rfl))

/-! ## Scan and reading -/

/-- The faults in a sequence that is read to such an end: to a number of values, or to an error. -/
def faultsOf : Except EvalError Nat → List Fault
  | .ok left => if 1 < left then [.tooManyOperands] else []
  | .error (.arity .operator _ _ _) => [.tooManyOperators]
  | .error (.arity .function name _ _) => [.tooFewArguments name, .tooManyOperators]
  | .error _ => []

theorem shortage_eq_faultsOf {count : Nat} {op : Operation} (short : count < op.arity) :
    shortage count (.operation op) ++ [.tooManyOperators] =
      faultsOf (.error (.tooFew op count)) := by
  cases op with
  | operator o => rfl
  | function f =>
    have missing : (count : Int) < f.arguments.toNat := Int.ofNat_lt.mpr short
    simp only [shortage, if_pos missing]
    rfl

/-- **The scan finds the faults that stop a reading**, in a sequence without functions of no
arguments, if names and applications do not. -/
theorem structural_eq_faultsOf {α : Type u} {I : Interpretation α} {ts : List Token}
    {stack : List α} (none : ∀ t ∈ ts, t.isNullary = false)
    (names : ∀ n, .name n ∈ ts → ∃ v, I.name n = .ok v)
    (applied : ∀ a ∈ I.applications stack ts,
      a.1.count.isIndex = true ∧ ∃ v, I.apply a.1 a.2 = .ok v) :
    structural stack.length ts = faultsOf ((I.steps stack ts).map List.length) := by
  induction ts generalizing stack with
  | nil =>
    simp only [structural, Interpretation.steps, Except.map, faultsOf]
    norm_cast
  | cons t ts ih =>
    have arity : t.readUnary.arity = t.arity := by
      rw [Token.arity_readUnary, none t (List.mem_cons_self ..)]
      rfl
    simp only [Interpretation.applications, List.mem_append, Option.mem_toList] at applied
    cases hs : I.step stack t with
    | ok next =>
      obtain ⟨enough, hlen⟩ := Interpretation.step_depth hs
      rw [structural_enough ts (arity ▸ enough), arity, ← hlen, Interpretation.steps, hs]
      refine ih (fun u hu => none u (List.mem_cons_of_mem t hu))
        (fun n hn => names n (List.mem_cons_of_mem t hn)) fun a ha => applied a (.inr ?_)
      rw [hs]
      exact ha
    | error e =>
      rw [Interpretation.steps, hs]
      -- Of the three ways in which a token stops a reading, only the want of values is left.
      rcases Interpretation.step_error hs with ⟨n, rfl, hn⟩ | ⟨op, rfl, short, rfl⟩ |
        ⟨a, ha, cause⟩
      · obtain ⟨v, hv⟩ := names n (List.mem_cons_self ..)
        rw [hv] at hn; cases hn
      · rw [structural_short ts (arity ▸ short)]
        exact shortage_eq_faultsOf short
      · obtain ⟨index, v, hv⟩ := applied a (.inl ha)
        rcases cause with ⟨noIndex, -⟩ | failed
        · rw [noIndex] at index; cases index
        · rw [hv] at failed; cases failed

end Validation

/-! ## Checking and evaluating an expression -/

namespace Expression

/-- The errors of a check tell how the evaluation ends, and the evaluation tells the errors. -/
structure SameDiagnosis (e : Expression) (level : Log.Level) (errors : List String) : Prop where
  operands : errors = ["Too many operands"] ↔
    ∃ remaining, 2 ≤ remaining ∧ (e.evaluate level).2 = .error (.malformed remaining)
  operators : errors = ["Too many operators"] ↔
    ∃ symbol required available,
      (e.evaluate level).2 = .error (.arity .operator symbol required available)
  arguments : ∀ name, errors = ["Not enough arguments for '" ++ name ++ "'", "Too many operators"] ↔
    ∃ required available,
      (e.evaluate level).2 = .error (.arity .function name required available)
  clear : errors = [] ↔ (∃ x, (e.evaluate level).2 = .ok x) ∨ e.tokens = []

theorem faults_validate {e : Expression} (bound : e.AllBound) (checked : Option Bool) :
    (e.validate checked).faults = Validation.structural 0 e.tokens := by
  have unbound : Validation.unbound (fun n => e.bindings.contains (.text n)) e.tokens = [] :=
    Validation.unbound_eq_nil_iff.mpr (allBound_iff.mp bound)
  simp [validate, ReversePolish.validate, unbound]

theorem sameDiagnosis_iff {e : Expression} {level : Log.Level} {v : Validation} :
    e.SameDiagnosis level v.errors ↔
      (v.faults = [.tooManyOperands] ↔
        ∃ remaining, 2 ≤ remaining ∧ (e.evaluate level).2 = .error (.malformed remaining)) ∧
      (v.faults = [.tooManyOperators] ↔ ∃ symbol required available,
        (e.evaluate level).2 = .error (.arity .operator symbol required available)) ∧
      (∀ name, v.faults = [.tooFewArguments name, .tooManyOperators] ↔
        ∃ required available,
          (e.evaluate level).2 = .error (.arity .function name required available)) ∧
      (v.faults = [] ↔ (∃ x, (e.evaluate level).2 = .ok x) ∨ e.tokens = []) := by
  simp only [← Validation.errors_eq_iff]
  exact ⟨fun h => ⟨h.operands, h.operators, h.arguments, h.clear⟩,
    fun ⟨operands, operators, arguments, clear⟩ => ⟨operands, operators, arguments, clear⟩⟩

theorem structural_of_served {e : Expression} (none : e.nullaries = 0) (bound : e.AllBound)
    (safe : e.NoneFails) (served : e.AllServed) :
    Validation.structural 0 e.tokens =
      Validation.faultsOf ((e.reading.steps [] e.tokens).map List.length) := by
  have total := reading_totalOn bound safe
  have some : ∀ t ∈ e.tokens, t.isNullary = false := fun t ht => by
    simpa using List.countP_eq_zero.mp none t ht
  have applied : ∀ a ∈ e.reading.applications [] e.tokens,
      a.1.count.isIndex = true ∧ ∃ x, e.reading.apply a.1 a.2 = .ok x := fun a ha => by
    obtain ⟨hop, hargs⟩ := Interpretation.mem_applications ha
    exact ⟨Count.isIndex_of_servedBy (served a ha), total.apply a.1 hop a.2 hargs⟩
  exact Validation.structural_eq_faultsOf some total.name applied

theorem tooFew_of_steps {e : Expression} {cause : EvalError} (bound : e.AllBound)
    (safe : e.NoneFails) (served : e.AllServed)
    (h : e.reading.steps [] e.tokens = .error cause) :
    ∃ op available, cause = .tooFew op available := by
  have total := reading_totalOn bound safe
  rcases Interpretation.steps_error_cases h with ⟨n, hn, unbound⟩ |
    ⟨before, op, after, mid, -, -, -, rfl⟩ | ⟨a, ha, ⟨noIndex, -⟩ | failed⟩
  · obtain ⟨x, hx⟩ := total.name n hn
    rw [hx] at unbound; cases unbound
  · exact ⟨op, mid.length, rfl⟩
  · rw [Count.isIndex_of_servedBy (served a ha)] at noIndex; cases noIndex
  · obtain ⟨hop, hargs⟩ := Interpretation.mem_applications ha
    obtain ⟨x, hx⟩ := total.apply a.1 hop a.2 hargs
    rw [hx] at failed; cases failed

/-- An evaluation that is served ends as the scan says. -/
theorem sameDiagnosis_of_served {e : Expression} (level : Log.Level) (checked : Option Bool)
    (none : e.nullaries = 0) (bound : e.AllBound) (safe : e.NoneFails) (served : e.AllServed) :
    e.SameDiagnosis level (e.validate checked).errors := by
  have hv : (e.evaluate level).2 = e.reading.fold e.tokens :=
    (e.evaluate_eq_fold_iff level).mpr served
  rw [sameDiagnosis_iff, faults_validate bound checked, structural_of_served none bound safe served,
    hv, Interpretation.fold]
  cases hs : e.reading.steps [] e.tokens with
  | ok last =>
    have hd := Interpretation.steps_depth hs
    rcases last with _ | ⟨x, _ | ⟨y, rest⟩⟩
    · have empty : e.tokens = [] := Classical.byContradiction fun some =>
        absurd (depth?_pos (.inr some) hd) (by simp)
      simp [empty, Interpretation.result, Validation.faultsOf, Except.map]
    · simp [Interpretation.result, Validation.faultsOf, Except.map]
    · have some : e.tokens ≠ [] := fun empty => by rw [empty] at hd; cases hd
      simp [some, Interpretation.result, Validation.faultsOf, Except.map]
  | error cause =>
    have some : e.tokens ≠ [] := fun empty => by rw [empty] at hs; cases hs
    obtain ⟨op, available, rfl⟩ := tooFew_of_steps bound safe served hs
    cases op with
    | operator o =>
      simp [some, Validation.faultsOf, Except.map, EvalError.tooFew, Operation.kind]
    | function f =>
      simp [some, Validation.faultsOf, Except.map, EvalError.tooFew, Operation.kind]

theorem served_of_sameDiagnosis {e : Expression} {level : Log.Level} {checked : Option Bool}
    (bound : e.AllBound) (same : e.SameDiagnosis level (e.validate checked).errors) :
    e.AllServed := by
  obtain ⟨operands, operators, arguments, clear⟩ := sameDiagnosis_iff.mp same
  rw [faults_validate bound checked] at operands operators arguments clear
  rcases Validation.structural_shape 0 e.tokens with h | h | h | ⟨name, h⟩
  · rcases clear.mp h with ⟨x, hx⟩ | empty
    · exact allServed_of_evaluate hx
    · intro a ha
      rw [empty] at ha
      cases ha
  · obtain ⟨remaining, -, hx⟩ := operands.mp h
    exact allServed_of_inSequence hx rfl
  · obtain ⟨symbol, required, available, hx⟩ := operators.mp h
    exact allServed_of_inSequence hx rfl
  · obtain ⟨required, available, hx⟩ := (arguments name).mp h
    exact allServed_of_inSequence hx rfl

/-- **Check and evaluation give the same diagnosis**, where all variables are bound, no operation
fails and there are no functions of no arguments. Too many operands are said to be there exactly if
two values or more are left, too many operators exactly if an operator misses an operand, and not
enough arguments exactly if the function of that name misses one; and nothing is said exactly if
there is a value, or no token at all. That holds exactly if the pool has a buffer for every
operation that the reading comes to. -/
theorem sameDiagnosis_iff_served (e : Expression) (level : Log.Level) (checked : Option Bool)
    (none : e.nullaries = 0) (bound : e.AllBound) (safe : e.NoneFails) :
    e.SameDiagnosis level (e.validate checked).errors ↔ e.AllServed :=
  ⟨served_of_sameDiagnosis bound, sameDiagnosis_of_served level checked none bound safe⟩

/-- A function of three arguments that finds two. -/
def mismeasured : List Token := [.name "pi", .number 2.0, .operation blend]

theorem sameDiagnosis_mismeasured :
    (unpooled mismeasured).AllBound ∧ (unpooled mismeasured).NoneFails ∧
      ((unpooled mismeasured).validate (some false)).errors =
        ["Not enough arguments for 'blend'", "Too many operators"] ∧
      ∃ required available, ((unpooled mismeasured).evaluate .silent).2 =
        .error (.arity .function "blend" required available) := by
  have bound : (unpooled mismeasured).AllBound := by
    intro n hn
    obtain rfl : n = "pi" := by simpa [unpooled, ofTokens, mismeasured] using hn
    exact ⟨Elementary.pi, rfl⟩
  have only {op : Operation} (h : .operation op ∈ (unpooled mismeasured).tokens) : op = blend := by
    simpa [unpooled, ofTokens, mismeasured] using h
  have safe : (unpooled mismeasured).NoneFails := by
    intro op hop args _
    rw [only hop]
    exact ⟨_, rfl⟩
  have served : (unpooled mismeasured).AllServed := allServed_of_operations fun op hop => by
    rw [only hop]
    rfl
  have same := (sameDiagnosis_iff_served (unpooled mismeasured) .silent (some false) rfl bound
    safe).mpr served
  exact ⟨bound, safe, rfl, (same.arguments "blend").mp rfl⟩

/-- Where no buffers are pooled, nothing is said of a sequence that ends without a value: a count
that was given as a truth value is refused. -/
theorem not_sameDiagnosis_doubt :
    (unpooled [.number 1.0, .operation doubt]).nullaries = 0 ∧
      (unpooled [.number 1.0, .operation doubt]).AllBound ∧
      (unpooled [.number 1.0, .operation doubt]).NoneFails ∧
      ((unpooled [.number 1.0, .operation doubt]).validate (some true)).errors = [] ∧
      ((unpooled [.number 1.0, .operation doubt]).evaluate .silent).2 =
        .error (.notLength (.truth true)) ∧
      ¬ (unpooled [.number 1.0, .operation doubt]).SameDiagnosis .silent
        ((unpooled [.number 1.0, .operation doubt]).validate (some true)).errors := by
  refine ⟨rfl, ?_, ?_, rfl, rfl, fun same => ?_⟩
  · intro n hn
    simp [unpooled, ofTokens] at hn
  · intro op hop args _
    obtain rfl : op = doubt := by simpa [unpooled, ofTokens] using hop
    exact ⟨_, rfl⟩
  · rcases same.clear.mp rfl with ⟨x, hx⟩ | empty
    · cases hx
    · cases empty

end Expression
end ReversePolish

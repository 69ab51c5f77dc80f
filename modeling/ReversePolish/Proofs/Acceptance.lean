/-
What the check of a sequence accepts. Its scan keeps a number of values that
is the true one but for functions of no arguments, which it counts as if they
took one; so it accepts the listings of trees in which they do
(`structural_eq_nil_iff_listing`). What it accepts an evaluation reads to the
end, and there one value is left for the sequence and one more for every
function of no arguments.
-/
import ReversePolish.Proofs.Depth
import ReversePolish.Proofs.Outcome

namespace ReversePolish

/-! ## Functions of no arguments -/

namespace Token

def isNullary : Token → Bool
  | .operation (.function f) => f.arguments.toNat == 0
  | _ => false

/-- The token, a function of no arguments being read as one of one. -/
def readUnary : Token → Token
  | .operation (.function (.defined d)) =>
    if d.arguments.toNat = 0 then
      .operation (.function (.defined { d with arguments := .whole 1 }))
    else .operation (.function (.defined d))
  | t => t

theorem arity_of_isNullary {t : Token} (h : t.isNullary = true) : t.arity = 0 := by
  unfold isNullary at h
  split at h
  · exact beq_iff_eq.mp h
  · cases h

theorem readUnary_of_not_isNullary {t : Token} (h : t.isNullary = false) : t.readUnary = t := by
  unfold readUnary
  split
  next d =>
    have hd : d.arguments.toNat ≠ 0 := by simpa [isNullary, Function.arguments] using h
    rw [if_neg hd]
  next => rfl

theorem arity_readUnary_of_isNullary {t : Token} (h : t.isNullary = true) :
    t.readUnary.arity = 1 := by
  unfold isNullary at h
  split at h
  next f =>
    cases f with
    | builtin f => cases f <;> cases h
    | defined d =>
      have hd : d.arguments.toNat = 0 := beq_iff_eq.mp h
      rw [readUnary, if_pos hd]
      rfl
  next => cases h

theorem arity_readUnary (t : Token) : t.readUnary.arity = if t.isNullary then 1 else t.arity := by
  cases h : t.isNullary with
  | true => rw [arity_readUnary_of_isNullary h]; rfl
  | false => rw [readUnary_of_not_isNullary h]; rfl

end Token

theorem depth?_of_readUnary {ts : List Token} {n m : Nat}
    (h : depth? n (ts.map Token.readUnary) = some m) :
    depth? n ts = some (m + ts.countP Token.isNullary) := by
  induction ts generalizing n with
  | nil => exact h
  | cons t ts ih =>
    rw [List.map_cons] at h
    obtain ⟨ha, h⟩ := depth?_cons_eq_some h
    rw [Token.arity_readUnary] at ha h
    cases nullary : t.isNullary with
    | true =>
      -- So read it puts one value in the place of another, and in truth it adds one.
      rw [nullary, if_pos rfl] at ha h
      have none := Token.arity_of_isNullary nullary
      have more := depth?_add 1 (ih h)
      rw [show n - 1 + 1 + 1 = n - t.arity + 1 by omega] at more
      rw [depth?_cons ts (by omega), List.countP_cons_of_pos nullary, more, Nat.add_assoc]
    | false =>
      rw [nullary, if_neg (by decide)] at ha h
      rw [depth?_cons ts ha, List.countP_cons_of_neg (by simp [nullary])]
      exact ih h

/-! ## The scan -/

namespace Validation

/-- The scan counts as if functions were so read. -/
theorem balanceAfter_eq (count : Int) (t : Token) :
    balanceAfter count t = count - t.readUnary.arity + 1 := by
  rw [Token.arity_readUnary]
  cases t with
  | number x => simp [balanceAfter, Token.isNullary, Token.arity]
  | name n => simp [balanceAfter, Token.isNullary, Token.arity]
  | operation op =>
    cases op with
    | operator o =>
      simp only [balanceAfter, Token.isNullary, Token.arity, Operation.arity, Operation.count]
      rcases o.arity_eq_one_or_two with h | h
      · simp [h]
      · simp [h]; omega
    | function f =>
      simp only [balanceAfter, Token.isNullary, Token.arity, Operation.arity, Operation.count,
        beq_iff_eq]
      by_cases many : 1 < f.arguments.toNat
      · have some : ¬ f.arguments.toNat = 0 := by omega
        rw [if_pos many, if_neg some]
        omega
      · rw [if_neg many]
        split
        · omega
        · omega

theorem shortage_eq_nil {count : Int} {t : Token} (h : t.readUnary.arity ≤ count) :
    shortage count t = [] := by
  unfold shortage
  split
  next f =>
    have ha : f.arguments.toNat ≤ count := by
      rw [Token.arity_readUnary] at h
      simp only [Token.isNullary, Token.arity, Operation.arity, Operation.count, beq_iff_eq] at h
      split at h
      · omega
      · exact h
    rw [if_neg (by omega)]
  next => rfl

theorem structural_pass {count : Int} {t : Token} (ts : List Token)
    (left : 1 ≤ balanceAfter count t) :
    structural count (t :: ts) = structural (balanceAfter count t) ts := by
  have enough : t.readUnary.arity ≤ count := by
    rw [balanceAfter_eq] at left
    omega
  rw [structural, shortage_eq_nil enough]
  exact if_neg (Int.not_lt.mpr left)

theorem structural_stop {count : Int} {t : Token} (ts : List Token)
    (none : balanceAfter count t < 1) :
    structural count (t :: ts) = shortage count t ++ [.tooManyOperators] :=
  congrArg (shortage count t ++ ·) (if_pos none)

theorem structural_cons {count : Nat} {t : Token} {ts : List Token} :
    structural count (t :: ts) = [] ↔
      t.readUnary.arity ≤ count ∧
        structural ((count - t.readUnary.arity + 1 : Nat) : Int) ts = [] := by
  by_cases enough : t.readUnary.arity ≤ count
  · have after : balanceAfter count t = ((count - t.readUnary.arity + 1 : Nat) : Int) := by
      rw [balanceAfter_eq]
      omega
    rw [structural_pass ts (by omega), after]
    simp [enough]
  · rw [structural_stop ts (by rw [balanceAfter_eq]; omega)]
    simp [enough]

/-- **The scan finds no fault exactly if at most one value is left**, functions of no arguments
being read as functions of one. -/
theorem structural_eq_nil_iff {count : Nat} {ts : List Token} :
    structural count ts = [] ↔
      ∃ m, m ≤ 1 ∧ depth? count (ts.map Token.readUnary) = some m := by
  induction ts generalizing count with
  | nil =>
    have left : structural count [] = [] ↔ count ≤ 1 := by
      simp only [structural]
      split
      · simp; omega
      · simp; omega
    simp [left, depth?]
  | cons t ts ih =>
    rw [structural_cons, ih, List.map_cons]
    constructor
    · rintro ⟨ha, m, hm, h⟩
      exact ⟨m, hm, by rw [depth?_cons _ ha]; exact h⟩
    · rintro ⟨m, hm, h⟩
      obtain ⟨ha, h⟩ := depth?_cons_eq_some h
      exact ⟨ha, m, hm, h⟩

/-- So it accepts the listings of trees, and nothing besides them but the empty sequence. -/
theorem structural_eq_nil_iff_listing {ts : List Token} :
    structural 0 ts = [] ↔
      ts = [] ∨ ∃ t : Tree, t.WellFormed ∧ t.postorder = ts.map Token.readUnary := by
  have scan : structural (0 : Nat) ts = [] ↔ _ := structural_eq_nil_iff
  rw [show (0 : Int) = (0 : Nat) from rfl, scan]
  constructor
  · rintro ⟨m, hm, h⟩
    by_cases empty : ts = []
    · exact .inl empty
    · have some : 0 < m := depth?_pos (.inr (by simpa using empty)) h
      obtain rfl : m = 1 := by omega
      exact .inr (Tree.depth?_eq_one_iff.mp h)
  · rintro (rfl | listed)
    · exact ⟨0, Nat.zero_le 1, rfl⟩
    · exact ⟨1, Nat.le_refl 1, Tree.depth?_eq_one_iff.mpr listed⟩

theorem unbound_eq_nil_iff {isBound : String → Bool} {ts : List Token} :
    unbound isBound ts = [] ↔ ∀ n, .name n ∈ ts → isBound n = true := by
  simp only [unbound, List.filterMap_eq_nil_iff]
  constructor
  · intro h n hn
    have hf := h _ hn
    cases hb : isBound n with
    | true => rfl
    | false => simp [hb] at hf
  · intro h t ht
    cases t with
    | number x => rfl
    | name n => simp [h n ht]
    | operation op => rfl

end Validation

/-! ## Checking and evaluating an expression -/

namespace Expression

/-- How many functions of no arguments the sequence has. -/
def nullaries (e : Expression) : Nat := e.tokens.countP Token.isNullary

theorem allBound_iff {e : Expression} :
    e.AllBound ↔ ∀ n, .name n ∈ e.tokens → e.bindings.contains (.text n) = true := by
  simp only [AllBound, Bindings.contains, Bindings.value?, Option.isSome_iff_exists]

theorem validate_valid_iff {e : Expression} {checked : Bool} :
    (e.validate (some checked)).valid = true ↔
      (checked = true → e.AllBound) ∧ Validation.structural 0 e.tokens = [] := by
  rw [allBound_iff, ← Validation.unbound_eq_nil_iff]
  cases checked with
  | true => simp [validate, ReversePolish.validate]
  | false => simp [validate, ReversePolish.validate]

/-- A checked sequence leaves one value, and one more for every function of no arguments. -/
theorem depth?_of_valid {e : Expression} (nonempty : e.tokens ≠ [])
    (valid : (e.validate (some true)).valid = true) :
    e.AllBound ∧ depth? 0 e.tokens = some (1 + e.nullaries) := by
  obtain ⟨bound, scanned⟩ := validate_valid_iff.mp valid
  refine ⟨bound rfl, ?_⟩
  rcases Validation.structural_eq_nil_iff_listing.mp scanned with empty | listed
  · exact absurd empty nonempty
  · exact depth?_of_readUnary (Tree.depth?_eq_one_iff.mpr listed)

/-- How an evaluation ends that is served, and in which all tokens find their values. -/
theorem evaluate_of_depth {e : Expression} (level : Log.Level) {m : Nat} (bound : e.AllBound)
    (hd : depth? 0 e.tokens = some m) (served : e.AllServed) :
    (m = 1 ∧ ∃ x, (e.evaluate level).2 = .ok x) ∨
      (m ≠ 1 ∧ (e.evaluate level).2 = .error (.malformed m)) ∨
      ∃ c, (e.evaluate level).2 = .error (.apply c) := by
  rw [(e.evaluate_eq_fold_iff level).mpr served, Interpretation.fold]
  cases hs : e.reading.steps [] e.tokens with
  | ok last =>
    have hlen := Interpretation.steps_depth hs
    rw [List.length_nil, hd] at hlen
    cases hlen
    rcases last with _ | ⟨x, _ | ⟨y, rest⟩⟩
    · exact .inr (.inl ⟨by simp, rfl⟩)
    · exact .inl ⟨rfl, x, rfl⟩
    · exact .inr (.inl ⟨by simp, rfl⟩)
  | error cause =>
    have hd : depth? ([] : List Float).length e.tokens = some m := hd
    rcases Interpretation.steps_error_of_depth hd hs with ⟨n, hn, unbound⟩ | ⟨a, ha, applied⟩
    · obtain ⟨x, hx⟩ := bound n hn
      rw [(valuation_name_error unbound).1] at hx
      cases hx
    · rcases applied with ⟨index, -⟩ | failed
      · rw [Count.isIndex_of_servedBy (served a ha)] at index
        cases index
      · obtain ⟨c, -, rfl⟩ := valuation_apply_error failed
        exact .inr (.inr ⟨c, rfl⟩)

theorem malformed_of_valid {e : Expression} {level : Log.Level} {cause : EvalError}
    (nonempty : e.tokens ≠ []) (valid : (e.validate (some true)).valid = true)
    (h : (e.evaluate level).2 = .error cause) (inSequence : cause.inSequence = true) :
    e.nullaries ≠ 0 ∧ cause = .malformed (1 + e.nullaries) := by
  obtain ⟨bound, hd⟩ := depth?_of_valid nonempty valid
  have served := allServed_of_inSequence h inSequence
  rcases evaluate_of_depth level bound hd served with ⟨-, x, hx⟩ | ⟨some, hx⟩ | ⟨c, hx⟩
  · rw [h] at hx; cases hx
  · rw [h] at hx
    cases hx
    exact ⟨by omega, rfl⟩
  · rw [h] at hx
    cases hx
    cases inSequence

/-- **What the check accepts is evaluated to the end.** No name is without a value and no
operation without its arguments. One value is left for the sequence, and one more for every
function of no arguments; so a sequence that has such functions is malformed in the end. Where the
pool has a buffer for every operation, the evaluation ends in that way unless an operation fails
before. -/
theorem evaluate_of_valid (e : Expression) (level : Log.Level) (nonempty : e.tokens ≠ [])
    (valid : (e.validate (some true)).valid = true) :
    (∀ cause, (e.evaluate level).2 = .error cause → cause.inSequence = true →
        e.nullaries ≠ 0 ∧ cause = .malformed (1 + e.nullaries)) ∧
      (e.AllServed →
        (e.nullaries = 0 ∧ ∃ x, (e.evaluate level).2 = .ok x) ∨
          (e.nullaries ≠ 0 ∧ (e.evaluate level).2 = .error (.malformed (1 + e.nullaries))) ∨
          ∃ c, (e.evaluate level).2 = .error (.apply c)) := by
  refine ⟨fun cause => malformed_of_valid nonempty valid, fun served => ?_⟩
  obtain ⟨bound, hd⟩ := depth?_of_valid nonempty valid
  rcases evaluate_of_depth level bound hd served with ⟨one, hx⟩ | ⟨many, hx⟩ | failed
  · exact .inl ⟨by omega, hx⟩
  · exact .inr (.inl ⟨by omega, hx⟩)
  · exact .inr (.inr failed)

/-- A function of three arguments applied to two constants and a number. -/
def measured : List Token := [.name "pi", .number 2.0, .name "e", .operation blend]

theorem operation_mem_measured {op : Operation} (h : .operation op ∈ measured) : op = blend := by
  simpa [measured] using h

theorem evaluate_of_valid_measured :
    ((unpooled measured).validate (some true)).valid = true ∧
      ((∃ x, ((unpooled measured).evaluate .silent).2 = .ok x) ∨
        ∃ c, ((unpooled measured).evaluate .silent).2 = .error (.apply c)) := by
  have valid : ((unpooled measured).validate (some true)).valid = true := rfl
  have served : (unpooled measured).AllServed := allServed_of_operations fun op hop => by
    rw [operation_mem_measured hop]
    rfl
  have none : (unpooled measured).nullaries = 0 := rfl
  obtain ⟨-, ends⟩ := evaluate_of_valid (unpooled measured) .silent (by nofun) valid
  rcases ends served with ⟨-, hx⟩ | ⟨some, -⟩ | failed
  · exact ⟨valid, .inl hx⟩
  · exact absurd none some
  · exact ⟨valid, .inr failed⟩

/-- A function of no arguments after a number is accepted, and the evaluation finds two values at
its end. -/
theorem evaluate_valid_nullary :
    ((unpooled [.number 1.0, .operation seven]).validate (some true)).valid = true ∧
      ((unpooled [.number 1.0, .operation seven]).evaluate .silent).2 = .error (.malformed 2) :=
  ⟨rfl, rfl⟩

/-! ## What is accepted -/

theorem allBound_of_evaluate {e : Expression} {level : Log.Level} {x : Float}
    (h : (e.evaluate level).2 = .ok x) : e.AllBound := by
  intro n hn
  obtain ⟨v, hv⟩ := Interpretation.steps_names (steps_of_evaluate h) n hn
  exact ⟨v, valuation_name_ok hv⟩

theorem valid_of_evaluate {e : Expression} {level : Log.Level} {x : Float}
    (none : e.nullaries = 0) (h : (e.evaluate level).2 = .ok x) :
    (e.validate (some true)).valid = true := by
  rw [validate_valid_iff, Validation.structural_eq_nil_iff_listing]
  constructor
  · exact fun _ => allBound_of_evaluate h
  · have same : e.tokens.map Token.readUnary = e.tokens := by
      refine (List.map_congr_left fun t ht => ?_).trans (List.map_id _)
      exact Token.readUnary_of_not_isNullary
        (by simpa using List.countP_eq_zero.mp none t ht)
    rw [same]
    exact .inr (Tree.depth?_eq_one_iff.mp (Interpretation.steps_depth (steps_of_evaluate h)))

/-- The evaluation of a sequence that passes finds no cause in it, if it has no functions of no
arguments. -/
theorem not_inSequence_of_valid {e : Expression} {level : Log.Level} (nonempty : e.tokens ≠ [])
    (none : e.nullaries = 0) (valid : (e.validate (some true)).valid = true) :
    ∀ cause, (e.evaluate level).2 = .error cause → cause.inSequence = false := by
  intro cause h
  cases hc : cause.inSequence with
  | false => rfl
  | true => exact absurd none (malformed_of_valid nonempty valid h hc).1

theorem evaluate_ok {e : Expression} {level : Log.Level} (safe : e.NoneFails)
    (served : e.AllServed)
    (clear : ∀ cause, (e.evaluate level).2 = .error cause → cause.inSequence = false) :
    ∃ x, (e.evaluate level).2 = .ok x := by
  cases h : (e.evaluate level).2 with
  | ok x => exact ⟨x, rfl⟩
  | error cause =>
    have found := evaluate_error served (fun _ => safe.met) h
    rw [clear cause h] at found
    cases found

theorem valid_iff_evaluate_iff {e : Expression} {level : Log.Level} (nonempty : e.tokens ≠ [])
    (none : e.nullaries = 0) (safe : e.NoneFails) :
    ((e.validate (some true)).valid = true ↔
        ∀ cause, (e.evaluate level).2 = .error cause → cause.inSequence = false) ↔
      (e.validate (some true)).valid = true ∨ e.AllServed := by
  constructor
  · intro agree
    by_cases served : e.AllServed
    · exact .inr served
    · refine .inl (agree.mpr fun cause h => ?_)
      cases hc : cause.inSequence with
      | false => rfl
      | true => exact absurd (allServed_of_inSequence h hc) served
  · rintro (valid | served)
    · exact ⟨fun _ => not_inSequence_of_valid nonempty none valid, fun _ => valid⟩
    · refine ⟨not_inSequence_of_valid nonempty none, fun clear => ?_⟩
      obtain ⟨x, hx⟩ := evaluate_ok safe served clear
      exact valid_of_evaluate none hx

/-- **The check accepts the listings of trees**, functions of no arguments being read as functions
of one, and the empty sequence; where it looks at the variables, they must be bound besides. A
sequence that is not empty and has no functions of no arguments, and in which no operation fails,
is accepted exactly if its evaluation finds no cause in the sequence. That last holds exactly if
it is accepted or the pool has a buffer for every operation that the reading comes to. -/
theorem validate_accepts (e : Expression) (level : Log.Level) :
    ((e.validate (some false)).valid = true ↔
        e.tokens = [] ∨ ∃ t : Tree, t.WellFormed ∧ t.postorder = e.tokens.map Token.readUnary) ∧
      ((e.validate (some true)).valid = true ↔
        (e.tokens = [] ∨
          ∃ t : Tree, t.WellFormed ∧ t.postorder = e.tokens.map Token.readUnary) ∧ e.AllBound) ∧
      (e.tokens ≠ [] → e.nullaries = 0 → e.NoneFails →
        (((e.validate (some true)).valid = true ↔
            ∀ cause, (e.evaluate level).2 = .error cause → cause.inSequence = false) ↔
          (e.validate (some true)).valid = true ∨ e.AllServed)) := by
  refine ⟨?_, ?_, fun nonempty none safe => valid_iff_evaluate_iff nonempty none safe⟩
  · rw [← Validation.structural_eq_nil_iff_listing, validate_valid_iff]
    simp
  · rw [← Validation.structural_eq_nil_iff_listing, validate_valid_iff, and_comm]
    simp

theorem validate_accepts_measured :
    (unpooled measured).NoneFails ∧ (unpooled measured).nullaries = 0 ∧
      ((unpooled measured).validate (some true)).valid = true ∧
      ∀ cause, ((unpooled measured).evaluate .silent).2 = .error cause →
        cause.inSequence = false := by
  have safe : (unpooled measured).NoneFails := by
    intro op hop args _
    rw [operation_mem_measured hop]
    exact ⟨_, rfl⟩
  have valid : ((unpooled measured).validate (some true)).valid = true := rfl
  obtain ⟨-, -, agree⟩ := validate_accepts (unpooled measured) .silent
  exact ⟨safe, rfl, valid, ((agree (by nofun) rfl safe).mpr (.inl valid)).mp valid⟩

/-- An operator that misses an operand after a function whose count was given as a truth value. -/
def doubted : List Token :=
  [.number 1.0, .operation doubt, .operation (.operator (.builtin .add))]

theorem noneFails_doubted : (unpooled doubted).NoneFails := by
  intro op hop args hargs
  have cases : op = doubt ∨ op = .operator (.builtin .add) := by
    simpa [unpooled, ofTokens, doubted] using hop
  rcases cases with rfl | rfl
  · exact ⟨_, rfl⟩
  · exact add_ok hargs

/-- Where no buffers are pooled, the check finds that an operand is missing, and the evaluation
does not come that far. -/
theorem validate_doubted :
    (unpooled doubted).NoneFails ∧ (unpooled doubted).nullaries = 0 ∧
      ((unpooled doubted).validate (some true)).faults = [.tooManyOperators] ∧
      ((unpooled doubted).evaluate .silent).2 = .error (.notLength (.truth true)) :=
  ⟨noneFails_doubted, rfl, rfl, rfl⟩

end Expression
end ReversePolish

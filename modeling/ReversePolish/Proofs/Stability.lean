/-
What is valid stays valid. A check that is passed with all variables bound is
passed ever after, by the expression and by all copies that are made of it
from then on, whatever is done with them and however it ends
(`Family.offspring_checked`): no step takes a binding away or changes the
tokens, and a copy has the bindings and the tokens of its source. A checked
expression never misses a value, in an evaluation or in any other step.
-/
import ReversePolish.Proofs.Acceptance
import ReversePolish.Proofs.Families
import ReversePolish.Proofs.History
import ReversePolish.Proofs.Refusal

namespace ReversePolish

/-! ## Where a value is missed -/

/-- A reading misses the value of a name only if it gives the name no meaning, or fails so on an
application. -/
theorem Interpretation.fold_unbound {α : Type} {I : Interpretation α} {ts : List Token} {n : String}
    (applied : ∀ op args, I.apply op args ≠ .error (.unbound n))
    (h : I.fold ts = .error (.unbound n)) : ∃ m, .name m ∈ ts ∧ I.name m = .error (.unbound n) := by
  rcases steps_of_fold_error h with stopped | ⟨remaining, malformed⟩
  · rcases steps_error_cases stopped with
      named | ⟨_, op, _, mid, -, -, -, short⟩ | ⟨a, -, ⟨-, notSlice⟩ | failed⟩
    · exact named
    · cases short
    · cases notSlice
    · exact absurd failed (applied a.1 a.2)
  · cases malformed

theorem rendering_ne_unbound (ts : List Token) (n : String) :
    rendering ts ≠ .error (.unbound n) := by
  intro h
  obtain ⟨m, -, missing⟩ := Interpretation.fold_unbound (fun _ _ failed => by cases failed) h
  cases missing

theorem symbolic_ne_unbound (ts : List Token) (n : String) :
    symbolic ts ≠ .error (.unbound n) := by
  intro h
  obtain ⟨m, -, missing⟩ := Interpretation.fold_unbound (fun _ _ failed => by cases failed) h
  cases missing

theorem Validation.ofFaults_eq_success_iff {faults : List Validation.Fault} :
    ofFaults faults = success ↔ (ofFaults faults).valid = true := by
  cases faults with
  | nil => exact iff_of_true rfl rfl
  | cons fault rest => simp [ofFaults, success]

namespace Expression

theorem name_of_evaluate_unbound {e : Expression} {level : Log.Level} {n : String}
    (h : (e.evaluate level).2 = .error (.unbound n)) :
    .name n ∈ e.tokens ∧ e.bindings.value? n = none := by
  rw [evaluate, (ReversePolish.evaluate_eq ..).1] at h
  split at h
  next cause refused =>
    obtain ⟨a, -, -, rfl⟩ := Run.refused_of_refusal? refused
    have outside := Count.inSequence_refusal e.pool.size a.1.count
    rw [Except.error.inj h] at outside
    cases outside
  next =>
    have applied (op : Operation) (args : List Float) :
        (valuation e.bindings.value?).apply op args ≠ .error (.unbound n) := by
      intro failed
      obtain ⟨_, -, same⟩ := valuation_apply_error failed
      cases same
    obtain ⟨m, hm, missing⟩ := Interpretation.fold_unbound applied h
    obtain ⟨none, same⟩ := valuation_name_error missing
    cases same
    exact ⟨hm, none⟩

theorem render_ne_unbound (e : Expression) (n : String) : e.render.2 ≠ .error (.unbound n) := by
  unfold render
  split
  · nofun
  · split
    · nofun
    next cause failed => exact fun missing => rendering_ne_unbound e.tokens n (failed.trans missing)

theorem bindStep_ne_unbound (level : Log.Level) (e : Expression) (entries : List (Name × Datum))
    (n : String) : (e.bindStep level entries).2.result ≠ .error (.eval (.unbound n)) := by
  unfold bindStep
  dsimp only
  split <;> nofun

theorem named_ne_unbound {e : Expression} {given : Datum} {go : Name → Expression × Report}
    {n : String} (h : ∀ name, (go name).2.result ≠ .error (.eval (.unbound n))) :
    (e.named given go).2.result ≠ .error (.eval (.unbound n)) := by
  unfold named
  split
  · exact h _
  · nofun

theorem ofEval_ne_unbound {α : Type} {reply : α → Reply} {outcome : Except EvalError α} {n : String}
    (h : outcome ≠ .error (.unbound n)) : ofEval reply outcome ≠ .error (.eval (.unbound n)) := by
  cases outcome with
  | ok a => nofun
  | error cause =>
    intro missing
    cases missing
    exact h rfl

/-! ## Checked expressions -/

/-- A check of the sequence and of its variables finds nothing. -/
def Checked (e : Expression) : Prop := e.validate (some true) = .success

theorem checked_iff {e : Expression} :
    e.Checked ↔ e.AllBound ∧ Validation.structural 0 e.tokens = [] := by
  have passed : e.Checked ↔ (e.validate (some true)).valid = true :=
    Validation.ofFaults_eq_success_iff
  rw [passed, validate_valid_iff]
  exact and_congr_left' (imp_iff_right rfl)

namespace Checked

variable {e e' : Expression}

/-- Bindings that come on top take none away. -/
theorem of_binds {made : List Binding} (h : e.Checked) (tokens : e'.tokens = e.tokens)
    (set : Binds e made e') : e'.Checked := by
  rw [checked_iff] at h ⊢
  refine ⟨fun n hn => ?_, tokens ▸ h.2⟩
  obtain ⟨x, hx⟩ := h.1 n (tokens ▸ hn)
  have found := Bindings.find?_setAll e.bindings made (.text n)
  rw [← set.bindings, ← Bindings.value?, ← Bindings.value?, hx] at found
  cases last : Bindings.lastSet? made (.text n) with
  | some y => exact ⟨y, by rw [found, last]; rfl⟩
  | none => exact ⟨x, by rw [found, last]; rfl⟩

/-- **No step takes it away**, whether it succeeds or fails. -/
theorem step (h : e.Checked) (level : Log.Level) (s : Step) : (e.step level s).1.Checked :=
  h.of_binds (keeps_step level e s).tokens (binds_step level e s)

theorem copy (h : e.Checked) : e.copy.Checked := h

theorem leftover (h : e.Checked) (cells : Leftover) :
    Checked (e.withLeftover cells) := h

theorem evaluate_ne_unbound (h : e.Checked) (level : Log.Level) (n : String) :
    (e.evaluate level).2 ≠ .error (.unbound n) := by
  intro missing
  obtain ⟨hn, none⟩ := name_of_evaluate_unbound missing
  obtain ⟨x, hx⟩ := (checked_iff.mp h).1 n hn
  rw [none] at hx
  cases hx

theorem runStep_ne_unbound (h : e.Checked) (level : Log.Level) (n : String) :
    (e.runStep level).2.result ≠ .error (.eval (.unbound n)) := by
  have bound := h.evaluate_ne_unbound level n
  unfold runStep
  dsimp only
  split
  · nofun
  next cause failed =>
    intro missing
    cases missing
    exact bound failed

theorem sweepStep_ne_unbound (level : Log.Level) (name : Name) (n : String) (values : List Datum) :
    ∀ {e : Expression} (found : List Float), e.Checked →
      (sweepStep level name e found values).2.result ≠ .error (.eval (.unbound n)) := by
  induction values with
  | nil => exact fun _ _ => nofun
  | cons value rest ih =>
    intro e found h
    have bound : (e.bindAll [(name, value)]).1.Checked :=
      h.of_binds (keeps_bindAll e _).tokens (binds_bindAll e _)
    simp only [sweepStep]
    split
    next cause refused =>
      exact fun missing => bindStep_ne_unbound level _ _ n (refused.trans missing)
    next =>
      split
      next cause failed =>
        intro missing
        cases missing
        exact bound.evaluate_ne_unbound level n failed
      next => exact ih _ bound

/-- **In no step is a value missed.** -/
theorem step_ne_unbound (h : e.Checked) (level : Log.Level) (s : Step) (n : String) :
    (e.step level s).2.result ≠ .error (.eval (.unbound n)) := by
  cases s with
  | evaluate => exact h.runStep_ne_unbound level n
  | evaluateOn executor => exact h.runStep_ne_unbound level n
  | bind given value => exact named_ne_unbound fun _ => bindStep_ne_unbound level e _ n
  | bindAll entries =>
    simp only [Expression.step]
    split
    · exact bindStep_ne_unbound level e _ n
    · exact fun missing => by cases missing
  | sweep given values =>
    simp only [Expression.step]
    split
    · exact fun missing => by cases missing
    · exact fun missing => by cases missing
    · exact named_ne_unbound fun _ => sweepStep_ne_unbound level _ n _ [] h
  | value given | cell given =>
    refine named_ne_unbound fun name missing => ?_
    cases found : e.bindings.find? name.key <;> rw [found] at missing <;> cases missing
  | render => exact ofEval_ne_unbound (render_ne_unbound e n)
  | symbolic => exact ofEval_ne_unbound (symbolic_ne_unbound e.tokens n)
  | freeSymbols => exact ofEval_ne_unbound (symbolic_ne_unbound e.tokens n)
  | userNames =>
    intro missing
    simp only [Expression.step, Report.pure] at missing
    cases order : Name.sorted? e.userNames <;> rw [order] at missing <;> cases missing
  | bindings | variableNames | validate | size | tokens | shown | clearStats =>
    exact fun missing => by cases missing

end Checked
end Expression

/-! ## Families -/

namespace Family

variable (level : Log.Level)

/-- Who is born of the given members in an event. -/
def bornOf (kin : List Nat) (f : Family) : Event → List Nat
  | .copy i => if i ∈ kin then [f.length] else []
  | _ => []

/-- The given members, the copies that are made of them in a script, the copies of those, and so
on. -/
def offspring (kin : List Nat) : Family → List Event → List Nat
  | _, [] => kin
  | f, ev :: rest => offspring (kin ++ bornOf kin f ev) (happen level f ev) rest

variable {level}

theorem checked_happen {f : Family} {kin : List Nat}
    (checked : ∀ k ∈ kin, ∃ e, f[k]? = some e ∧ e.Checked) (ev : Event) :
    ∀ k ∈ kin ++ bornOf kin f ev, ∃ e, (happen level f ev)[k]? = some e ∧ e.Checked := by
  cases ev with
  | on i s =>
    simp only [bornOf, List.append_nil]
    intro k hk
    obtain ⟨e, member, h⟩ := checked k hk
    by_cases own : i = k
    · exact ⟨_, by simp [happen, member, own], h.step level s⟩
    · exact ⟨e, by simp [happen, member, own], h⟩
  | leftover i cells =>
    simp only [bornOf, List.append_nil]
    intro k hk
    obtain ⟨e, member, h⟩ := checked k hk
    by_cases own : i = k
    · exact ⟨_, by simp [happen, member, own], h.leftover cells⟩
    · exact ⟨e, by simp [happen, member, own], h⟩
  | copy i =>
    refine List.forall_mem_append.mpr ⟨fun k hk => ?_, fun k born => ?_⟩
    · obtain ⟨e, member, h⟩ := checked k hk
      refine ⟨e, ?_, h⟩
      rw [happen, List.getElem?_append_left (List.getElem?_eq_some_iff.mp member).1, member]
    · by_cases hi : i ∈ kin
      · rw [bornOf, if_pos hi] at born
        obtain rfl := List.mem_singleton.mp born
        obtain ⟨e, member, h⟩ := checked i hi
        exact ⟨e.copy, by simp [happen, member], h.copy⟩
      · rw [bornOf, if_neg hi] at born
        cases born

/-- **What is valid stays valid.** Let a check of a member and of its variables find nothing. Then
after any further script, with sets that succeed or are refused, evaluations that fail half-way and
copies that are worked on like it, a check of that member finds nothing, nor does a check of any
copy that was made of it since then, of a copy of such a copy, and so on. No evaluation of any of
them misses the value of a variable, and no other step does. -/
theorem offspring_checked {f : Family} {i : Nat} {e : Expression} (member : f[i]? = some e)
    (checked : e.validate (some true) = .success) (later : List Event) :
    ∀ k ∈ offspring level [i] f later, ∃ e', (after level f later)[k]? = some e' ∧
      e'.validate (some true) = .success ∧
      (∀ level' n, (e'.evaluate level').2 ≠ .error (.unbound n)) ∧
      ∀ level' s n, (e'.step level' s).2.result ≠ .error (.eval (.unbound n)) := by
  have all : ∀ k ∈ [i], ∃ e, f[k]? = some e ∧ e.Checked :=
    List.forall_mem_singleton.mpr ⟨e, member, checked⟩
  generalize [i] = kin at all
  clear member checked
  induction later generalizing f kin with
  | nil =>
    intro k hk
    obtain ⟨e', there, h⟩ := all k hk
    exact ⟨e', there, h, h.evaluate_ne_unbound, h.step_ne_unbound⟩
  | cons ev rest ih => exact ih _ (checked_happen all ev)

/-- A variable, and a function without a kernel that is applied to it. -/
def unfinished : Expression :=
  .ofTokens [.name "x", .operation (.function (.defined ⟨0, "later", .whole 1, none⟩))] [] {}

/-- A refused mapping, a copy, an evaluation that fails, a copy of the copy, another value for it,
and a copy of the member that was never checked. -/
def eventful : List Event :=
  [.on 0 (.bindAll [(.text "y", .real 1.0), (.text "x", .null)]), .copy 0, .on 0 .evaluate,
    .copy 2, .on 3 (.bind (.text "x") (.real 3.0)), .on 2 (.bind (.text "sin") (.real 0.0)),
    .copy 1]

theorem offspring_checked_eventful :
    let f := after .silent [unfinished] [.copy 0, .on 0 (.bind (.text "x") (.real 2.0))]
    (∃ e, f[0]? = some e ∧ e.validate (some true) = .success) ∧
      (∃ e, f[1]? = some e ∧ e.validate (some true) ≠ .success) ∧
      offspring .silent [0] f eventful = [0, 2, 3] ∧
      ∃ e', (after .silent f eventful)[3]? = some e' ∧ e'.bindings.value? "x" = some 3.0 ∧
        e'.validate (some true) = .success ∧
        ∀ n, (e'.step .silent .evaluate).2.result ≠ .error (.eval (.unbound n)) := by
  intro f
  have kin : 3 ∈ offspring .silent [0] f eventful := by decide
  obtain ⟨e', there, checked, -, bound⟩ := offspring_checked rfl rfl eventful 3 kin
  refine ⟨⟨_, rfl, rfl⟩, ⟨_, rfl, nofun⟩, rfl, e', there, ?_, checked, bound .silent .evaluate⟩
  cases there
  rfl

end Family
end ReversePolish

/-
Two runs of one script. Expressions over the same tokens, names and bindings
may differ in how much is pooled, in their stacks and in whatever their cells,
buffers and counters hold; a script that is run from both gets the same
answers, whatever comes to lie in unwritten cells between its steps
(`Alike.answersAmid_eq`). Every step keeps two such expressions alike, a copy
of each of them too, and so it is with workspaces that keep alike expressions
under the same names.

The counts of the operations must be ones that both pools treat alike, as
plain whole numbers always are; a pool may refuse another count where a
greater one serves it.
-/
import Mathlib.Data.List.Forall2
import ReversePolish.Expression.Workspace
import ReversePolish.Proofs.Refusal

namespace ReversePolish
namespace Expression

/-! ## Expressions that no step tells apart -/

/-- Two expressions with the same tokens, names, bindings and text, whose pools have the sizes of
their settings and treat all counts of the tokens alike. -/
structure Alike (e e' : Expression) : Prop where
  tokens : e'.tokens = e.tokens
  userNames : e'.userNames = e.userNames
  bindings : e'.bindings = e.bindings
  checks : e'.config.checkVariablesOnValidate = e.config.checkVariablesOnValidate
  text : e'.text = e.text
  size : e.pool.size = e.config.scratchPoolSize
  size' : e'.pool.size = e'.config.scratchPoolSize
  counts : ∀ op, .operation op ∈ e.tokens →
    op.count.AlikeIn e.config.scratchPoolSize e'.config.scratchPoolSize

/-- Two steps with the same result and calls that end in expressions that are alike. -/
structure StepsAlike (out out' : Expression × Report) : Prop where
  after : Alike out.1 out'.1
  result : out'.2.result = out.2.result
  calls : out'.2.calls = out.2.calls

namespace Alike

variable {e e' : Expression} (level level' : Log.Level)

theorem pure (h : Alike e e') (result : Except StepError Reply) :
    StepsAlike (e, .pure result) (e', .pure result) := ⟨h, rfl, rfl⟩

theorem eq_with (h : Alike e e') :
    ∃ config stack pool, e' = { e with config := config, stack := stack, pool := pool } := by
  obtain ⟨tokens, userNames, config, bindings, stack, pool, text⟩ := e'
  obtain ⟨sameTokens, sameNames, sameBindings, -, sameText, -, -, -⟩ := h
  subst sameTokens sameNames sameBindings sameText
  exact ⟨config, stack, pool, rfl⟩

theorem ofTokens {tokens : List Token} (userNames : List Name) {config config' : Config}
    (checks : config.checkVariablesOnValidate = config'.checkVariablesOnValidate)
    (counts : ∀ op, .operation op ∈ tokens →
      op.count.AlikeIn config.scratchPoolSize config'.scratchPoolSize) :
    Alike (.ofTokens tokens userNames config) (.ofTokens tokens userNames config') where
  tokens := rfl
  userNames := rfl
  bindings := rfl
  checks := checks.symm
  text := rfl
  size := rfl
  size' := rfl
  counts := counts

theorem copy (h : Alike e e') : Alike e.copy e'.copy where
  tokens := h.tokens
  userNames := h.userNames
  bindings := h.bindings
  checks := h.checks
  text := h.text
  size := rfl
  size' := rfl
  counts := h.counts

theorem right (h : Alike e e') : Alike e' e' :=
  ⟨rfl, rfl, rfl, rfl, rfl, h.size', h.size', fun _ _ => .inr Iff.rfl⟩

theorem withLeftover (h : Alike e e') (cells : Leftover) : Alike (e.withLeftover cells) e' :=
  ⟨h.tokens, h.userNames, h.bindings, h.checks, h.text, h.size, h.size', h.counts⟩

/-! ## Evaluations -/

theorem evaluate (h : Alike e e') :
    (e'.evaluate level').2 = (e.evaluate level).2 ∧
      (e'.evaluate level').1.calls.toList = (e.evaluate level).1.calls.toList ∧
      Alike (e.afterRun (e.evaluate level).1) (e'.afterRun (e'.evaluate level').1) := by
  have refuse : e.refusal? = e'.refusal? := by
    unfold refusal? reading
    rw [h.tokens, h.bindings, h.size, h.size']
    exact Run.refusal?_alike fun a ha => h.counts a.1 (Interpretation.mem_applications ha).1
  obtain ⟨outcome, calls⟩ := (evaluate_alike_iff level level' h.tokens.symm
    fun n => by rw [h.bindings]).mpr refuse
  refine ⟨outcome.symm, calls.symm, h.tokens, h.userNames, h.bindings, h.checks, h.text, ?_, ?_,
    h.counts⟩
  · exact (size_evaluate level _ _ _ _).trans h.size
  · exact (size_evaluate level' _ _ _ _).trans h.size'

theorem runStep (h : Alike e e') : StepsAlike (e.runStep level) (e'.runStep level') := by
  obtain ⟨outcome, calls, after⟩ := h.evaluate level level'
  refine ⟨after, ?_, calls⟩
  simp only [Expression.runStep, outcome]

/-! ## Bindings -/

theorem bind (h : Alike e e') (name : Name) (value : Datum) :
    (∃ cause, e.bind name value = .error cause ∧ e'.bind name value = .error cause) ∨
      ∃ f f', e.bind name value = .ok f ∧ e'.bind name value = .ok f' ∧ Alike f f' := by
  unfold Expression.bind
  rw [h.userNames, h.bindings]
  split
  · exact .inl ⟨_, rfl, rfl⟩
  · split
    next x _ =>
      exact .inr ⟨_, _, rfl, rfl, h.tokens, rfl, rfl, h.checks, h.text, h.size, h.size',
        h.counts⟩
    · exact .inl ⟨_, rfl, rfl⟩

theorem bindAll (h : Alike e e') (entries : List (Name × Datum)) :
    Alike (e.bindAll entries).1 (e'.bindAll entries).1 ∧
      (e'.bindAll entries).2 = (e.bindAll entries).2 := by
  induction entries generalizing e e' with
  | nil => exact ⟨h, rfl⟩
  | cons entry rest ih =>
    obtain ⟨name, value⟩ := entry
    simp only [Expression.bindAll]
    rcases h.bind name value with ⟨cause, hb, hb'⟩ | ⟨f, f', hb, hb', next⟩
    · rw [hb, hb']
      exact ⟨h, rfl⟩
    · rw [hb, hb']
      exact ih next

theorem bindStep (h : Alike e e') (entries : List (Name × Datum)) :
    StepsAlike (e.bindStep level entries) (e'.bindStep level' entries) := by
  obtain ⟨after, refusals⟩ := h.bindAll entries
  refine ⟨after, ?_, rfl⟩
  simp only [Expression.bindStep, refusals]

theorem sweepStep (name : Name) (values : List Datum) {e e' : Expression} (h : Alike e e')
    (found : List Float) :
    StepsAlike (Expression.sweepStep level name e found values)
      (Expression.sweepStep level' name e' found values) := by
  induction values generalizing e e' found with
  | nil => exact h.pure _
  | cons value rest ih =>
    have bound := h.bindStep level level' [(name, value)]
    obtain ⟨outcome, calls, after⟩ := bound.after.evaluate level level'
    simp only [Expression.sweepStep, bound.result]
    split
    · exact ⟨bound.after, rfl, bound.calls⟩
    · rw [outcome]
      split
      · exact ⟨after, rfl, calls⟩
      next x _ =>
        have later := ih after (x :: found)
        exact ⟨later.after, later.result, congrArg₂ _ calls later.calls⟩

/-! ## Steps -/

theorem named (h : Alike e e') (given : Datum) {go go' : Name → Expression × Report}
    (alike : ∀ name, StepsAlike (go name) (go' name)) :
    StepsAlike (e.named given go) (e'.named given go') := by
  unfold Expression.named
  split
  · exact alike _
  · exact h.pure _

theorem validate (h : Alike e e') (checked : Option Bool) :
    e'.validate checked = e.validate checked := by
  unfold Expression.validate
  rw [h.tokens, h.bindings, h.checks]

theorem render (h : Alike e e') :
    Alike e.render.1 e'.render.1 ∧ e'.render.2 = e.render.2 := by
  unfold Expression.render
  rw [h.text]
  split
  · exact ⟨h, rfl⟩
  · rw [h.tokens]
    split
    next text _ =>
      exact ⟨⟨rfl, h.userNames, h.bindings, h.checks, rfl, h.size, h.size', h.counts⟩, rfl⟩
    · exact ⟨h, rfl⟩

/-- **No step tells alike expressions apart**: it gives both the same answer and leaves them
alike. -/
theorem step (h : Alike e e') (s : Step) : StepsAlike (e.step level s) (e'.step level' s) := by
  cases s with
  | evaluate => exact h.runStep level level'
  | evaluateOn executor =>
    have ran := h.runStep level level'
    exact ⟨ran.after, ran.result, ran.calls⟩
  | bind name value => exact h.named name fun name => h.bindStep level level' [(name, value)]
  | bindAll entries =>
    simp only [Expression.step]
    split
    · exact h.bindStep level level' _
    · exact h.pure _
  | sweep name values =>
    simp only [Expression.step]
    split
    · exact h.pure _
    · exact h.pure _
    · exact h.named name fun name => sweepStep level level' name _ h []
  | value name =>
    refine h.named name fun name => ?_
    rw [h.bindings]
    exact h.pure _
  | cell name =>
    refine h.named name fun name => ?_
    rw [h.bindings]
    exact h.pure _
  | validate checked =>
    refine ⟨h, ?_, rfl⟩
    simp only [Expression.step, h.validate]
  | render =>
    obtain ⟨after, texts⟩ := h.render
    refine ⟨after, ?_, rfl⟩
    simp only [Expression.step, Report.pure, texts]
  | clearStats =>
    exact ⟨⟨h.tokens, h.userNames, h.bindings, h.checks, h.text, h.size, h.size', h.counts⟩, rfl,
      rfl⟩
  | bindings | userNames | variableNames | symbolic | freeSymbols | size | tokens | shown =>
    -- These read only what alike expressions have in common.
    obtain ⟨config, stack, pool, rfl⟩ := h.eq_with
    exact ⟨h, rfl, rfl⟩

end Alike
end Expression

/-! ## Workspaces -/

namespace Workspace

/-- Entries under the same keys, with expressions that are alike. -/
def EntriesAlike (entries entries' : List (Key × Expression)) : Prop :=
  List.Forall₂ (fun entry entry' => entry'.1 = entry.1 ∧ entry.2.Alike entry'.2) entries entries'

/-- Workspaces that keep alike expressions under the same keys, and work on alike ones. -/
structure Alike (w w' : Workspace) : Prop where
  place : w'.place = w.place
  here : w.here.Alike w'.here
  others : EntriesAlike w.others w'.others

theorem EntriesAlike.lookup {entries entries' : List (Key × Expression)}
    (h : EntriesAlike entries entries') (key : Key) :
    (entries.lookup key = none ∧ entries'.lookup key = none) ∨
      ∃ e e', entries.lookup key = some e ∧ entries'.lookup key = some e' ∧ e.Alike e' := by
  induction h with
  | nil => exact .inl ⟨rfl, rfl⟩
  | @cons entry entry' rest rest' head _ ih =>
    obtain ⟨old, e⟩ := entry
    obtain ⟨_, e'⟩ := entry'
    obtain ⟨rfl, alike⟩ := head
    simp only [List.lookup_cons]
    split
    · exact .inr ⟨e, e', rfl, rfl, alike⟩
    · exact ih

theorem EntriesAlike.without {entries entries' : List (Key × Expression)}
    (h : EntriesAlike entries entries') (key : Key) :
    EntriesAlike (Workspace.without entries key) (Workspace.without entries' key) := by
  induction h with
  | nil => exact .nil
  | @cons entry entry' rest rest' head _ ih =>
    simp only [Workspace.without, List.filter_cons, head.1] at ih ⊢
    split
    · exact .cons head ih
    · exact ih

theorem EntriesAlike.right {entries entries' : List (Key × Expression)}
    (h : EntriesAlike entries entries') : EntriesAlike entries' entries' := by
  induction h with
  | nil => exact .nil
  | cons head _ ih => exact .cons ⟨rfl, head.2.right⟩ ih

namespace Alike

variable {w w' : Workspace} (level level' : Log.Level)

theorem right (h : Alike w w') : Alike w' w' :=
  ⟨rfl, h.here.right, h.others.right⟩

theorem kept (h : Alike w w') : EntriesAlike w.kept w'.kept := by
  unfold Workspace.kept
  rw [h.place]
  split
  next key _ => exact .cons ⟨rfl, h.here⟩ h.others
  · exact h.others

theorem put (h : Alike w w') (key : Key) {e e' : Expression} (alike : e.Alike e') :
    Alike (w.put key e) (w'.put key e') :=
  ⟨by simp only [Workspace.put, h.place], h.here, .cons ⟨rfl, alike⟩ (h.others.without key)⟩

theorem use (h : Alike w w') (key : Key) {e e' : Expression} (alike : e.Alike e') :
    Alike (w.use key e) (w'.use key e') := ⟨rfl, alike, h.kept.without key⟩

/-- **No step tells alike workspaces apart.** -/
theorem step (h : Alike w w') (s : Step) :
    Alike (w.step level s).1 (w'.step level' s).1 ∧
      (w'.step level' s).2.result = (w.step level s).2.result ∧
      (w'.step level' s).2.calls = (w.step level s).2.calls := by
  cases s with
  | on s =>
    have stepped := h.here.step level level' s
    exact ⟨⟨h.place, stepped.after, h.others⟩, stepped.result, stepped.calls⟩
  | copy name =>
    cases hn : Name.ofDatum? name with
    | ok name =>
      simp only [Workspace.step, hn, and_true]
      exact h.put name.key h.here.copy
    | error cause =>
      simp only [Workspace.step, hn, and_true]
      exact h
  | use name =>
    cases hn : Name.ofDatum? name with
    | ok name =>
      rcases h.kept.lookup name.key with ⟨none, none'⟩ | ⟨e, e', found, found', alike⟩
      · simp only [Workspace.step, hn, find?, none, none', and_true]
        exact h
      · simp only [Workspace.step, hn, find?, found, found', and_true]
        exact h.use name.key alike
    | error cause =>
      simp only [Workspace.step, hn, and_true]
      exact h

end Alike

/-! ## Scripts -/

/-- What the steps of a script answer: the result of each, and its calls. -/
def answers (level : Log.Level) (w : Workspace) (script : List Step) :
    List (Except Expression.StepError Expression.Reply × List Call) :=
  (w.steps level script).map fun (report, _) => (report.result, report.calls)

inductive Event where
  | step (s : Step)
  /-- Something else comes to lie in unwritten cells of the expression that is worked on. -/
  | leftover (cells : Expression.Leftover)

def Event.step? : Event → Option Step
  | .step s => some s
  | .leftover _ => none

def answersAmid (level : Log.Level) : Workspace → List Event →
    List (Except Expression.StepError Expression.Reply × List Call)
  | _, [] => []
  | w, .step s :: rest =>
    ((w.step level s).2.result, (w.step level s).2.calls) ::
      answersAmid level (w.step level s).1 rest
  | w, .leftover cells :: rest =>
    answersAmid level { w with here := w.here.withLeftover cells } rest

/-- **Alike workspaces answer every script alike**, whatever comes to lie in unwritten cells. -/
theorem Alike.answersAmid_eq {w w' : Workspace} (level level' : Log.Level) (h : Alike w w')
    (events : List Event) :
    w.answersAmid level events = w'.answers level' (events.filterMap Event.step?) := by
  induction events generalizing w w' with
  | nil => rfl
  | cons event rest ih =>
    cases event with
    | step s =>
      obtain ⟨after, result, calls⟩ := h.step level level' s
      rw [answersAmid, ih after, ← result, ← calls]
      rfl
    | leftover cells => exact ih ⟨h.place, h.here.withLeftover cells, h.others⟩

end Workspace

/-! ## Settings and history -/

namespace Config

/-- In so much room no stack is made of the capacity that the settings have. -/
def TooLarge (room : Nat) (c : Config) : Prop :=
  ∃ cause, Datum.checkLength room c.initialStackCapacity = .error cause

theorem not_tooLarge {room : Nat} {c : Config}
    (numbered : Datum.bytesOf c.initialStackCapacity ≤ Datum.greatestNumber)
    (fits : Datum.bytesOf c.initialStackCapacity ≤ room) : ¬ c.TooLarge room := by
  rintro ⟨cause, h⟩
  rw [Datum.checkLength_eq_ok numbered fits] at h
  cases h

end Config

namespace Entry

theorem mem_of_tokens? {entries : List Entry} {tokens : List Token}
    (h : tokens? entries = .ok tokens) {t : Token} (ht : t ∈ tokens) : .token t ∈ entries := by
  induction entries generalizing tokens with
  | nil => cases h; cases ht
  | cons entry rest ih =>
    cases entry with
    | other d => cases h
    | token first =>
      rw [tokens?] at h
      split at h
      next later hl =>
        cases h
        rcases List.mem_cons.mp ht with rfl | ht
        · exact List.mem_cons_self ..
        · exact List.mem_cons_of_mem _ (ih hl ht)
      next => cases h

end Entry

namespace Expression

/-- Where stacks can be made the settings do not decide whether an expression is. -/
theorem make_cases (entries : List Entry) (userNames : Datum) {config config' : Config}
    {room room' : Nat} (fits : ¬ config.TooLarge room) (fits' : ¬ config'.TooLarge room') :
    (∃ cause, make entries userNames config room = .error cause ∧
        make entries userNames config' room' = .error cause) ∨
      ∃ tokens names, Entry.tokens? entries = .ok tokens ∧
        make entries userNames config room = .ok (ofTokens tokens names config) ∧
        make entries userNames config' room' = .ok (ofTokens tokens names config') := by
  unfold make
  cases ht : Entry.tokens? entries with
  | error cause => exact .inl ⟨cause, rfl, rfl⟩
  | ok tokens =>
    cases hn : userNames.names? with
    | error cause => exact .inl ⟨cause, rfl, rfl⟩
    | ok names =>
      cases hc : Datum.checkLength room config.initialStackCapacity with
      | error cause => exact absurd ⟨cause, hc⟩ fits
      | ok _ =>
        cases hc' : Datum.checkLength room' config'.initialStackCapacity with
        | error cause => exact absurd ⟨cause, hc'⟩ fits'
        | ok _ => exact .inr ⟨tokens, names, rfl, rfl, rfl⟩

theorem Reachable.alike_self {e : Expression} (h : Reachable e) : Alike e e := by
  have refl (size : Nat) (c : Count) : c.AlikeIn size size := .inr Iff.rfl
  induction h with
  | made tokens userNames config => exact .ofTokens userNames rfl fun op _ => refl _ _
  | step level s _ ih => exact (ih.step level level s).after
  | copy _ ih => exact ih.copy
  | leftover cells _ ih =>
    exact ⟨rfl, rfl, rfl, rfl, rfl, ih.size, ih.size, fun op _ => refl _ _⟩

/-- The two evaluations have one outcome and make the same calls. -/
structure EvaluateAlike (level level' : Log.Level) (e e' : Expression) : Prop where
  outcome : (e.evaluate level).2 = (e'.evaluate level').2
  calls : (e.evaluate level).1.calls.toList = (e'.evaluate level').1.calls.toList

/-- Where the settings have pools of one size, nothing is refused by one that the other serves. -/
theorem refusal?_of_size {e e' : Expression} (h : Reachable e) (h' : Reachable e')
    (tokens : e.tokens = e'.tokens) (values : ∀ n, e.bindings.value? n = e'.bindings.value? n)
    (size : e.config.scratchPoolSize = e'.config.scratchPoolSize) : e.refusal? = e'.refusal? := by
  have reading : e'.bindings.value? = e.bindings.value? := funext fun n => (values n).symm
  unfold refusal? Expression.reading
  rw [reading, tokens, h.alike_self.size, h'.alike_self.size, size]

end Expression

namespace Workspace

/-- What is answered amid such events by an expression that is made from such parts, where there is
so much room. -/
def answersOf (level : Log.Level) (room : Nat) (entries : List Entry) (userNames : Datum)
    (config : Config) (name : String) (events : List Event) :
    Except CreationError (List (Except Expression.StepError Expression.Reply × List Call)) :=
  (Expression.make entries userNames config room).map fun e =>
    (start name e).answersAmid level events

theorem answersOf_alike (level level' : Log.Level) {entries : List Entry} (userNames : Datum)
    {config config' : Config} {room room' : Nat} (name : String) {events events' : List Event}
    (script : events.filterMap Event.step? = events'.filterMap Event.step?)
    (checks : config.checkVariablesOnValidate = config'.checkVariablesOnValidate)
    (counts : ∀ op, .token (.operation op) ∈ entries →
      op.count.AlikeIn config.scratchPoolSize config'.scratchPoolSize)
    (fits : ¬ config.TooLarge room) (fits' : ¬ config'.TooLarge room') :
    answersOf level room entries userNames config name events =
      answersOf level' room' entries userNames config' name events' := by
  rcases Expression.make_cases entries userNames fits fits' with
    ⟨cause, h, h'⟩ | ⟨tokens, names, ht, h, h'⟩
  · simp only [answersOf, h, h', Except.map]
  · have here : (Expression.ofTokens tokens names config).Alike (.ofTokens tokens names config') :=
      .ofTokens names checks fun op hop => counts op (Entry.mem_of_tokens? ht hop)
    have starts : (start name (.ofTokens tokens names config)).Alike
        (start name (.ofTokens tokens names config')) := ⟨rfl, here, .nil⟩
    simp only [answersOf, h, h', Except.map, starts.answersAmid_eq level level' events,
      starts.right.answersAmid_eq level' level' events', script]

/-- **Neither settings nor history show in results.** Two settings that differ at most in how much
is pooled and in the capacity of the stack answer every script alike, with the same results and
calls, whatever lies in unwritten cells on either side, if both treat the counts of all operations
alike, as they do all plain whole numbers. Settings by which no expression is made, because there
is no room for a stack of their capacity, are left out. And two expressions that are reached in any
ways with the same tokens and values evaluate alike if their pools have one size; if not, exactly
if the first operation that is refused, if any, is refused for one cause. -/
theorem answersOf_eq_and_evaluateAlike (level level' : Log.Level) :
    (∀ (entries : List Entry) (userNames : Datum) (config config' : Config) (room room' : Nat)
      (name : String) (events events' : List Event),
      events.filterMap Event.step? = events'.filterMap Event.step? →
      config.checkVariablesOnValidate = config'.checkVariablesOnValidate →
      (∀ op, .token (.operation op) ∈ entries →
        op.count.AlikeIn config.scratchPoolSize config'.scratchPoolSize) →
      config.TooLarge room ∨ config'.TooLarge room' ∨
        answersOf level room entries userNames config name events =
          answersOf level' room' entries userNames config' name events') ∧
    (∀ e e' : Expression, e.Reachable → e'.Reachable → e.tokens = e'.tokens →
      (∀ n, e.bindings.value? n = e'.bindings.value? n) →
      (e.config.scratchPoolSize = e'.config.scratchPoolSize →
        Expression.EvaluateAlike level level' e e') ∧
      (Expression.EvaluateAlike level level' e e' ↔ e.refusal? = e'.refusal?)) := by
  constructor
  · intro entries userNames config config' room room' name events events' script checks counts
    by_cases large : config.TooLarge room
    · exact .inl large
    · by_cases large' : config'.TooLarge room'
      · exact .inr (.inl large')
      · exact .inr (.inr
          (answersOf_alike level level' userNames name script checks counts large large'))
  · intro e e' h h' tokens values
    have alike : Expression.EvaluateAlike level level' e e' ↔ e.refusal? = e'.refusal? :=
      ⟨fun same => (Expression.evaluate_alike_iff level level' tokens values).mp
          ⟨same.outcome, same.calls⟩,
        fun refuse =>
          have same := (Expression.evaluate_alike_iff level level' tokens values).mpr refuse
          ⟨same.1, same.2⟩⟩
    exact ⟨fun size => alike.mpr (Expression.refusal?_of_size h h' tokens values size), alike⟩

def rehearsal : List Step :=
  [.on .evaluate, .on (.bind (.text "x") (.real 2.0)), .copy (.text "copy"), .use (.text "copy"),
    .on .evaluate, .on (.validate none)]

/-- The same script, with something else in unwritten cells before every step. -/
def disturbed : List Event :=
  rehearsal.flatMap fun s => [.leftover ⟨fun _ => 7.0, fun _ _ => 8.0⟩, .step s]

theorem answersOf_eq_and_evaluateAlike_blended :
    (∃ answers, answersOf .silent Datum.room (Expression.blended.map .token) .null
        { scratchPoolSize := 2 } "main" (rehearsal.map .step) = .ok answers ∧
      answersOf .silent 4096 (Expression.blended.map .token) .null
        { scratchPoolSize := 0, initialStackCapacity := 1 } "main" disturbed = .ok answers) ∧
    Expression.EvaluateAlike .silent .silent Expression.sample
      (Expression.sample.step .silent .evaluate).1 := by
  obtain ⟨scripts, states⟩ := answersOf_eq_and_evaluateAlike .silent .silent
  constructor
  · have counts : ∀ op, .token (.operation op) ∈ Expression.blended.map Entry.token →
        op.count.AlikeIn 2 0 := by
      intro op hop
      obtain ⟨t, ht, hop⟩ := List.mem_map.mp hop
      cases hop
      rcases Expression.operation_mem_blended ht with rfl | rfl | rfl
      · exact .inl ⟨3, rfl⟩
      · exact .inl ⟨0, rfl⟩
      · exact .inl ⟨2, rfl⟩
    rcases scripts (Expression.blended.map .token) .null { scratchPoolSize := 2 }
        { scratchPoolSize := 0, initialStackCapacity := 1 } Datum.room 4096 "main"
        (rehearsal.map .step) disturbed rfl rfl counts with large | large | h
    · exact absurd large (Config.not_tooLarge (by decide) (by decide))
    · exact absurd large (Config.not_tooLarge (by decide) (by decide))
    · exact ⟨_, rfl, h.symm⟩
  · exact (states _ _ (.made ..) (.step .silent .evaluate (.made ..)) rfl fun _ => rfl).1 rfl

/-- With no buffers pooled an evaluation stops at a count that was given as a truth value; with as
many as usual it gives a value. -/
theorem answersOf_doubt :
    answersOf .silent Datum.room [.token (.number 1.0), .token (.operation Expression.doubt)] .null
        { scratchPoolSize := 0 } "main" [.step (.on .evaluate)] =
      .ok [(.error (.eval (.notLength (.truth true))), [])] ∧
    answersOf .silent Datum.room [.token (.number 1.0), .token (.operation Expression.doubt)] .null
        {} "main" [.step (.on .evaluate)] =
      .ok [(.ok (.computed (0.0 + 1.0)), [⟨Expression.doubt, [1.0]⟩])] :=
  ⟨rfl, rfl⟩

end Workspace
end ReversePolish

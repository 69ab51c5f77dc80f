/-
Copies. An expression, its copies and theirs are a family, in which any member
may do a step at any time. Whatever the others do, what a member answers is
what its own steps answer when they are run alone: those of the first member
on itself, and those of a copy on a new expression that is given the bindings
that its source had (`Family.answersOn_alone`).

That the values of one do not reach the others is in the form of the data, as
bindings have no cells to share. What is proved is what a copy starts with, and
that nothing it has from its source shows later. It is like the new expression
but for the text, which it may have from its source; so two expressions are
compared that keep any text of their tokens or none (`Mirrors`).
-/
import ReversePolish.Proofs.Families
import ReversePolish.Proofs.Reserved
import ReversePolish.Proofs.Script

namespace ReversePolish
namespace Expression

/-! ## The kept text -/

def withText (e : Expression) (text : Option String) : Expression := { e with text := text }

section
variable (e : Expression) (text : Option String) (level : Log.Level)

theorem bindAll_withText (entries : List (Name × Datum)) :
    (e.withText text).bindAll entries = Prod.map (withText · text) id (e.bindAll entries) := by
  induction entries generalizing e with
  | nil => rfl
  | cons entry rest ih =>
    obtain ⟨name, value⟩ := entry
    have bound : (e.withText text).bind name value = (e.bind name value).map (withText · text) := by
      change (if isReserved e.userNames name.key then _ else _) =
        Except.map _ (if isReserved e.userNames name.key then _ else _)
      split
      · rfl
      · cases value.toFloat? <;> rfl
    simp only [bindAll, bound]
    cases e.bind name value with
    | ok e => exact ih e
    | error cause => rfl

theorem bindStep_withText (entries : List (Name × Datum)) :
    (e.withText text).bindStep level entries =
      Prod.map (withText · text) id (e.bindStep level entries) := by
  simp only [bindStep, bindAll_withText]
  rfl

theorem sweepStep_withText (name : Name) (values : List Datum) (found : List Float) :
    sweepStep level name (e.withText text) found values =
      Prod.map (withText · text) id (sweepStep level name e found values) := by
  induction values generalizing e found with
  | nil => rfl
  | cons value rest ih =>
    simp only [sweepStep, bindStep_withText]
    cases e.bindStep level [(name, value)] with
    | mk bound binding =>
    simp only [Prod.map_apply, id]
    cases binding.result with
    | error cause => rfl
    | ok _ =>
      have run : (bound.withText text).evaluate level = bound.evaluate level := rfl
      simp only [run]
      cases bound.evaluate level with
      | mk run outcome =>
      cases outcome with
      | error cause => rfl
      | ok x =>
        have ran : (bound.withText text).afterRun run = (bound.afterRun run).withText text := rfl
        simp only [ran, ih]
        rfl

theorem named_withText (given : Datum) {go go' : Name → Expression × Report}
    (h : ∀ name, go' name = Prod.map (withText · text) id (go name)) :
    (e.withText text).named given go' = Prod.map (withText · text) id (e.named given go) := by
  unfold named
  split
  · exact h _
  · rfl

/-- **No step but the rendering looks at the kept text**, or changes it. -/
theorem step_withText {s : Step} (other : s ≠ .render) :
    (e.withText text).step level s = Prod.map (withText · text) id (e.step level s) := by
  cases s with
  | render => exact absurd rfl other
  | bind name value => exact named_withText e text _ fun _ => bindStep_withText e text level _
  | bindAll entries =>
    simp only [step]
    split
    · exact bindStep_withText e text level _
    · rfl
  | sweep name values =>
    simp only [step]
    split
    · rfl
    · rfl
    · exact named_withText e text _ fun _ => sweepStep_withText e text level _ _ []
  | value name => exact named_withText e text _ fun _ => rfl
  | cell name => exact named_withText e text _ fun _ => rfl
  | evaluate | evaluateOn | bindings | variableNames | userNames | validate | symbolic
  | freeSymbols | size | tokens | shown | clearStats => rfl

end

/-! ## Expressions that answer alike -/

def answers (level : Log.Level) : Expression → List Step → List Answer
  | _, [] => []
  | e, s :: rest => e.answer level s :: answers level (e.step level s).1 rest

/-- Two expressions that are alike but for the text that they keep, which is that of their tokens
if they keep any. -/
structure Mirrors (e e' : Expression) : Prop where
  alike : (e.withText none).Alike (e'.withText none)
  text : e.TextHolds
  text' : e'.TextHolds

namespace Mirrors

variable {e e' : Expression} (level level' : Log.Level)

/-- **No step tells them apart.** -/
theorem step (h : Mirrors e e') (s : Step) :
    Mirrors (e.step level s).1 (e'.step level' s).1 ∧ e.answer level s = e'.answer level' s := by
  have text := h.text.keeps (keeps_step level e s)
  have text' := h.text'.keeps (keeps_step level' e' s)
  by_cases render : s = .render
  · subst render
    have forgotten (e : Expression) : e.render.1.withText none = e.withText none := by
      unfold Expression.render
      split
      · rfl
      · split <;> rfl
    refine ⟨⟨?_, text, text'⟩, ?_⟩
    · have alike := h.alike
      rw [← forgotten e, ← forgotten e'] at alike
      exact alike
    · have tokens : e'.tokens = e.tokens := h.alike.tokens
      simp only [answer, Expression.step, h.text.render, h.text'.render, tokens]
  · have alike := h.alike.step level level' s
    rw [step_withText e none level render, step_withText e' none level' render] at alike
    exact ⟨⟨alike.after, text, text'⟩, Prod.ext alike.result.symm alike.calls.symm⟩

theorem leftover (h : Mirrors e e') (cells : Leftover) :
    Mirrors (e.withLeftover cells) e' :=
  have alike := h.alike
  ⟨⟨alike.tokens, alike.userNames, alike.bindings, alike.checks, alike.text, alike.size,
    alike.size', alike.counts⟩, h.text, h.text'⟩

end Mirrors

/-! ## What is reached mirrors a new expression -/

namespace Reachable

variable {e : Expression}

theorem mirrors_self (h : Reachable e) : Mirrors e e :=
  have alike := h.alike_self
  ⟨⟨rfl, rfl, rfl, rfl, rfl, alike.size, alike.size, alike.counts⟩, h.text, h.text⟩

/-- What is reached comes of a new expression by setting values, none under a reserved name. -/
theorem binds (h : Reachable e) :
    ∃ made, (ofTokens e.tokens e.userNames e.config).Binds made e := by
  induction h with
  | made tokens userNames config => exact ⟨[], .refl _⟩
  | @step e level s _ ih =>
    obtain ⟨made, binds⟩ := ih
    have keeps := keeps_step level e s
    rw [keeps.tokens, keeps.userNames, keeps.config]
    exact ⟨_, binds.trans (binds_step level e s)⟩
  | copy _ ih =>
    obtain ⟨made, binds⟩ := ih
    exact ⟨made, binds.bindings, binds.userNames, binds.allowed⟩
  | leftover cells _ ih =>
    obtain ⟨made, binds⟩ := ih
    exact ⟨made, binds.bindings, binds.userNames, binds.allowed⟩

theorem isReserved_eq_false (h : Reachable e) {entry : Binding}
    (bound : entry ∈ e.bindings.entries) :
    isReserved e.userNames entry.name.key = false := by
  obtain ⟨made, binds⟩ := h.binds
  have name : entry.name ∈ e.bindings.names := List.mem_map_of_mem bound
  rw [binds.bindings] at name
  rcases Bindings.mem_names_setAll name with old | ⟨set, hs, same⟩
  · exact isReserved_eq_false_iff.mpr ((Unreserved.ofTokens e.config).names _ old)
  · rw [← same]
    exact binds.allowed set hs

end Reachable

/-- A new expression over the same parts that is given the same bindings, in their order. -/
def rebuild (e : Expression) : Expression × Option BindError :=
  (ofTokens e.tokens e.userNames e.config).bindAll
    (e.bindings.entries.map fun entry => (entry.name, .real entry.value))

theorem bindAll_reals {e : Expression} {sets : List Binding}
    (free : ∀ b ∈ sets, isReserved e.userNames b.name.key = false) :
    e.bindAll (sets.map fun b => (b.name, .real b.value)) =
      ({ e with bindings := e.bindings.setAll sets }, none) := by
  induction sets generalizing e with
  | nil => rfl
  | cons b rest ih =>
    obtain ⟨first, later⟩ := List.forall_mem_cons.mp free
    have bound : e.bind b.name (.real b.value) =
        .ok { e with bindings := e.bindings.set b.name b.value } := by
      simp only [bind, first, Datum.toFloat?]
      rfl
    simp only [List.map_cons, bindAll, bound]
    exact ih later

theorem Reachable.rebuild_eq {e : Expression} (h : Reachable e) :
    e.rebuild = ({ ofTokens e.tokens e.userNames e.config with bindings := e.bindings }, none) := by
  obtain ⟨made, binds⟩ := h.binds
  have once : ((ofTokens e.tokens e.userNames e.config).bindings.names.map Name.key).Nodup := by
    simp only [ofTokens, initialBindings_eq, Bindings.names, List.map_map]
    exact nodup_constants e.userNames
  have free : ∀ b ∈ e.bindings.entries,
      isReserved (ofTokens e.tokens e.userNames e.config).userNames b.name.key = false :=
    fun b hb => h.isReserved_eq_false hb
  rw [rebuild, bindAll_reals free, binds.bindings, Bindings.setAll_entries once]

theorem Reachable.copy_mirrors {e : Expression} (h : Reachable e) :
    Mirrors e.copy e.rebuild.1 := by
  rw [h.rebuild_eq]
  exact ⟨⟨rfl, rfl, rfl, rfl, rfl, rfl, rfl, fun _ _ => .inr Iff.rfl⟩, h.copy.text, nofun⟩

/-- The stack and the pool are those of a new expression by the same settings: nothing is on the
stack, which has the capacity of the settings, and nothing was counted. -/
structure Fresh (e : Expression) : Prop where
  depth : e.stack.count = 0
  capacity : e.stack.capacity = e.config.initialStackCapacity
  hits : e.pool.hits = 0
  misses : e.pool.misses = 0

theorem fresh_copy (e : Expression) : e.copy.Fresh := ⟨rfl, Array.size_replicate, rfl, rfl⟩

end Expression

namespace Family

variable {level : Log.Level}

/-! ## What a member answers -/

/-- **A member answers what its steps answer alone**, on whatever mirrors it. -/
theorem answersOn_eq (level' : Log.Level) {k : Nat} {f : Family} {e e' : Expression}
    (member : f[k]? = some e) (mirrors : e.Mirrors e') (script : List Event) :
    answersOn level k f script = e'.answers level' (ownSteps k script) := by
  induction script generalizing f e e' with
  | nil => rfl
  | cons ev rest ih =>
    rw [answersOn_cons, member]
    -- The member does a step of its own, or is there as it was but for unwritten cells.
    cases ev with
    | on i s =>
      by_cases own : i = k
      · subst own
        obtain ⟨next, answers⟩ := mirrors.step level level' s
        have there : (happen level f (.on i s))[i]? = some (e.step level s).1 := by
          simp [happen, member]
        simp [ih there next, ownSteps, Event.stepOf?, Expression.answers, answers]
      · have there : (happen level f (.on i s))[k]? = some e := by
          simp [happen, member, own]
        simp [ih there mirrors, ownSteps, Event.stepOf?, own]
    | copy i =>
      have there : (happen level f (.copy i))[k]? = some e := by
        rw [happen, List.getElem?_append_left (List.getElem?_eq_some_iff.mp member).1, member]
      exact ih there mirrors
    | leftover i cells =>
      by_cases own : i = k
      · subst own
        have there : (happen level f (.leftover i cells))[i]? =
            some (e.withLeftover cells) := by
          simp [happen, member]
        exact ih there (mirrors.leftover cells)
      · have there : (happen level f (.leftover i cells))[k]? = some e := by
          simp [happen, member, own]
        exact ih there mirrors

/-- **Copies are independent, and the same expression.** In any script on a reached expression, on
its copies and on theirs, the first member answers what its own steps answer when they are run
alone. Every copy joins as a member with an empty stack of the capacity of the settings and with
nothing counted, and answers what its own steps answer alone on a new expression of the same tokens,
names and settings that is given the bindings of the source, of which none is refused. -/
theorem answersOn_alone {e : Expression} (reached : e.Reachable) (level level' : Log.Level)
    (script : List Event) :
    answersOn level 0 [e] script = e.answers level' (ownSteps 0 script) ∧
      ∀ before j later source, script = before ++ .copy j :: later →
        (after level [e] before)[j]? = some source →
        let k := (after level [e] before).length
        (after level [e] (before ++ [.copy j]))[k]? = some source.copy ∧
          source.copy.Fresh ∧ source.rebuild.2 = none ∧
          answersOn level k [e] script = source.rebuild.1.answers level' (ownSteps k later) := by
  refine ⟨answersOn_eq level' rfl reached.mirrors_self script, ?_⟩
  rintro before j later source rfl found k
  have sourceReached : source.Reachable :=
    reachable_after (List.forall_mem_singleton.mpr reached) before source
      (List.mem_of_getElem? found)
  have born : happen level (after level [e] before) (.copy j) =
      after level [e] before ++ [source.copy] := by
    simp [happen, found]
  have joined : (happen level (after level [e] before) (.copy j))[k]? = some source.copy := by
    rw [born]
    exact List.getElem?_concat_length
  refine ⟨?_, source.fresh_copy, by rw [sourceReached.rebuild_eq], ?_⟩
  · rw [after_concat]
    exact joined
  · rw [answersOn_append, answersOn_unborn (Nat.le_refl _), List.nil_append]
    exact answersOn_eq level' joined sourceReached.copy_mirrors later

/-- A constant gets another value before a copy is made, and one after it; a copy of the copy gets a
third. -/
def nested : List Event :=
  [.on 0 (.bind (.text "e") (.real 2.0)), .on 0 .render, .copy 0,
    .on 0 (.bind (.text "e") (.real 9.0)), .copy 1, .on 2 (.bind (.text "e") (.real 4.0)),
    .leftover 1 ⟨fun _ => 1.0, fun _ _ => 1.0⟩, .on 1 .evaluate, .on 2 .render, .on 2 .evaluate,
    .on 0 .evaluate]

theorem answersOn_alone_nested :
    Expression.sample.Reachable ∧
      answersOn .silent 0 [Expression.sample] nested = Expression.sample.answers .verbose
        [.bind (.text "e") (.real 2.0), .render, .bind (.text "e") (.real 9.0), .evaluate] ∧
      ∃ source, (after .silent [Expression.sample] (nested.take 4))[1]? = some source ∧
        source.bindings.value? "e" = some 2.0 ∧
        answersOn .silent 2 [Expression.sample] nested = source.rebuild.1.answers .verbose
          [.bind (.text "e") (.real 4.0), .render, .evaluate] := by
  have reached : Expression.sample.Reachable := .made ..
  obtain ⟨first, copies⟩ := answersOn_alone reached .silent .verbose nested
  obtain ⟨-, -, -, second⟩ := copies (nested.take 4) 1 (nested.drop 5) _ rfl rfl
  exact ⟨reached, first, _, rfl, rfl, second⟩

end Family
end ReversePolish

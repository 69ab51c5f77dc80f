/-
The states an expression comes to: new, then any steps, and copied any number
of times. No step changes the tokens, the names of functions or the settings,
and the text that is kept is always the text of the tokens.
-/
import ReversePolish.Expression.Step

namespace ReversePolish
namespace Expression

/-- What every step leaves as it is, and what it may do to the kept text: find it if there is
none. -/
structure Keeps (e e' : Expression) : Prop where
  tokens : e'.tokens = e.tokens
  userNames : e'.userNames = e.userNames
  config : e'.config = e.config
  text : e'.text = e.text ∨ e.text = none ∧ ∃ text, e'.text = some text ∧
    rendering e.tokens = .ok text

theorem Keeps.refl (e : Expression) : Keeps e e := ⟨rfl, rfl, rfl, .inl rfl⟩

theorem Keeps.trans {e e' e'' : Expression} (h : Keeps e e') (h' : Keeps e' e'') :
    Keeps e e'' := by
  refine ⟨h'.tokens.trans h.tokens, h'.userNames.trans h.userNames, h'.config.trans h.config, ?_⟩
  rcases h'.text with ht' | ⟨hn, text, hs, hr⟩
  · rw [ht']; exact h.text
  · rcases h.text with ht | ⟨_, text', hs', _⟩
    · exact .inr ⟨ht ▸ hn, text, hs, h.tokens ▸ hr⟩
    · rw [hn] at hs'; cases hs'

/-! ## The parts of a step -/

theorem keeps_afterRun (e : Expression) (r : Run) : Keeps e (e.afterRun r) :=
  ⟨rfl, rfl, rfl, .inl rfl⟩

theorem keeps_bind {e e' : Expression} {name : Name} {value : Datum}
    (h : e.bind name value = .ok e') : Keeps e e' := by
  unfold bind at h
  split at h
  · cases h
  · split at h
    · cases h; exact ⟨rfl, rfl, rfl, .inl rfl⟩
    · cases h

theorem bind_eq_with {e bound : Expression} {name : Name} {value : Datum}
    (h : e.bind name value = .ok bound) : bound = { e with bindings := bound.bindings } := by
  unfold bind at h
  split at h
  · cases h
  · split at h
    · cases h; rfl
    · cases h

theorem bindAll_eq_with (e : Expression) (entries : List (Name × Datum)) :
    (e.bindAll entries).1 = { e with bindings := (e.bindAll entries).1.bindings } := by
  induction entries generalizing e with
  | nil => rfl
  | cons entry rest ih =>
    obtain ⟨name, value⟩ := entry
    simp only [bindAll]
    split
    next bound h => exact (ih bound).trans (by rw [bind_eq_with h])
    next => rfl

theorem keeps_bindAll (e : Expression) (entries : List (Name × Datum)) :
    Keeps e (e.bindAll entries).1 := by
  induction entries generalizing e with
  | nil => exact .refl e
  | cons entry rest ih =>
    obtain ⟨name, value⟩ := entry
    simp only [bindAll]
    split
    next e' h => exact (keeps_bind h).trans (ih e')
    next => exact .refl e

theorem keeps_bindStep (level : Log.Level) (e : Expression) (entries : List (Name × Datum)) :
    Keeps e (e.bindStep level entries).1 := keeps_bindAll e entries

theorem keeps_runStep (level : Log.Level) (e : Expression) : Keeps e (e.runStep level).1 :=
  keeps_afterRun e _

theorem keeps_sweepStep (level : Log.Level) (name : Name) (values : List Datum) :
    ∀ (e : Expression) (found : List Float), Keeps e (sweepStep level name e found values).1 := by
  induction values with
  | nil => exact fun e found => .refl e
  | cons value rest ih =>
    intro e found
    have bound := keeps_bindStep level e [(name, value)]
    simp only [sweepStep]
    split
    · exact bound
    · have ran := bound.trans (keeps_afterRun _
        (((e.bindStep level [(name, value)]).1.evaluate level).1))
      split
      · exact ran
      · exact ran.trans (ih _ _)

theorem keeps_named {e : Expression} {given : Datum} {go : Name → Expression × Report}
    (h : ∀ name, Keeps e (go name).1) : Keeps e (e.named given go).1 := by
  unfold named
  split
  · exact h _
  · exact .refl e

theorem keeps_render (e : Expression) : Keeps e e.render.1 := by
  unfold render
  split
  · exact .refl e
  next hn =>
    split
    next text hr => exact ⟨rfl, rfl, rfl, .inr ⟨hn, text, rfl, hr⟩⟩
    next => exact .refl e

/-- **No step changes what an expression is**: its tokens, reserved names and settings. -/
theorem keeps_step (level : Log.Level) (e : Expression) (s : Step) :
    Keeps e (e.step level s).1 := by
  cases s with
  | evaluate => exact keeps_runStep level e
  | evaluateOn executor => exact keeps_runStep level e
  | bind name value => exact keeps_named fun _ => keeps_bindStep level e _
  | bindAll entries =>
    simp only [step]
    split
    · exact keeps_bindStep level e _
    · exact .refl e
  | sweep name values =>
    simp only [step]
    split
    · exact .refl e
    · exact .refl e
    · exact keeps_named fun _ => keeps_sweepStep level _ _ e []
  | value name => exact keeps_named fun _ => .refl e
  | cell name => exact keeps_named fun _ => .refl e
  | render => exact keeps_render e
  | clearStats => exact ⟨rfl, rfl, rfl, .inl rfl⟩
  | bindings | variableNames | userNames | validate | symbolic | freeSymbols | size | tokens
  | shown => exact .refl e

/-! ## Reachable expressions -/

/-- What lies in cells that were not written: by place in those of a stack, and by address and
place in those of the buffers that are made. -/
structure Leftover where
  stack : Nat → Float
  buffers : Nat → Nat → Float

def withLeftover (e : Expression) (cells : Leftover) : Expression :=
  { e with stack := e.stack.withLeftover cells.stack, pool := e.pool.withLeftover cells.buffers }

/-- The expressions that are reached: new ones, those after a step, and copies. What lies in cells
that were not written may be anything at any time. -/
inductive Reachable : Expression → Prop
  | made (tokens : List Token) (userNames : List Name) (config : Config) :
    Reachable (ofTokens tokens userNames config)
  | step (level : Log.Level) (s : Step) : Reachable e → Reachable (e.step level s).1
  | copy : Reachable e → Reachable e.copy
  | leftover (cells : Leftover) : Reachable e → Reachable (e.withLeftover cells)

/-- The kept text, if there is one, is the text of the tokens. -/
def TextHolds (e : Expression) : Prop := ∀ text, e.text = some text → rendering e.tokens = .ok text

theorem TextHolds.keeps {e e' : Expression} (h : e.TextHolds) (keeps : Keeps e e') :
    e'.TextHolds := by
  intro text ht
  rw [keeps.tokens]
  rcases keeps.text with same | ⟨_, found, h', hr⟩
  · exact h text (same ▸ ht)
  · rw [h'] at ht; cases ht; exact hr

/-- Then the expression renders as its tokens do. -/
theorem TextHolds.render {e : Expression} (h : e.TextHolds) : e.render.2 = rendering e.tokens := by
  unfold Expression.render
  split
  next text ht => exact (h text ht).symm
  next =>
    split
    next text hr => exact hr.symm
    next cause hr => exact hr.symm

/-- **The kept text is the text of the tokens.** -/
theorem Reachable.text {e : Expression} (h : Reachable e) :
    ∀ text, e.text = some text → rendering e.tokens = .ok text := by
  induction h with
  | made tokens userNames config => intro text ht; cases ht
  | @step e level s _ ih => exact TextHolds.keeps ih (keeps_step level e s)
  | copy _ ih => exact ih
  | leftover cells _ ih => exact ih

theorem Reachable.render {e : Expression} (h : Reachable e) : e.render.2 = rendering e.tokens :=
  TextHolds.render h.text

end Expression
end ReversePolish

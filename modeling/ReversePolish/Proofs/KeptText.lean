/-
The kept text. A rendering looks at the tokens only if no text is kept, and
keeps the one that it finds; a copy takes along what its source keeps. No other
step looks at the text or changes it. So whatever is done with an expression,
its copies and theirs, a member keeps a text exactly if it was asked for one,
or its source was before the copy was made, and the tokens have one; and every
rendering ends as one of the tokens does (`Family.text_member`).

What such a rendering may end with is the other half: a text, or a fault in the
shape of the sequence, unless it comes to a count that cuts no arguments off a
stack (`rendering_inShape_iff`).
-/
import ReversePolish.Proofs.Copies
import ReversePolish.Proofs.Parsing

namespace ReversePolish

/-! ## How a rendering ends -/

/-- Does an operation find too few values, or is not one value left in the end? -/
def EvalError.inShape : EvalError → Bool
  | .arity .. => true
  | .malformed _ => true
  | _ => false

theorem rendering_error {ts : List Token} {cause : EvalError} (h : rendering ts = .error cause) :
    cause.inShape = true ∨
      ∃ a ∈ Rendering.interpretation.applications [] ts, a.1.count.isIndex = false := by
  rcases Interpretation.steps_of_fold_error h with stopped | ⟨remaining, rfl⟩
  · rcases Interpretation.steps_error_cases stopped with
      ⟨n, -, unnamed⟩ | ⟨_, op, _, mid, -, -, -, rfl⟩ | ⟨a, ha, ⟨noIndex, -⟩ | failed⟩
    · cases unnamed
    · exact .inl rfl
    · exact .inr ⟨a, ha, noIndex⟩
    · cases failed
  · exact .inl rfl

/-- **A rendering that fails does so for the shape of the sequence**, exactly if it comes to no
operation whose count was given as a number with a point. -/
theorem rendering_inShape_iff (ts : List Token) :
    (∀ cause, rendering ts = .error cause → cause.inShape = true) ↔
      ∀ a ∈ Rendering.interpretation.applications [] ts, a.1.count.isIndex = true := by
  constructor
  · intro shape a ha
    refine eq_true_of_ne_false fun noIndex => ?_
    have stopped : rendering ts = .error .notSlice := by
      rw [rendering, Interpretation.fold, Interpretation.steps_notSlice ⟨a, ha, noIndex⟩]
    cases shape _ stopped
  · intro index cause h
    rcases rendering_error h with shape | ⟨a, ha, noIndex⟩
    · exact shape
    · rw [index a ha] at noIndex; cases noIndex

namespace Expression

/-! ## The text of one expression -/

theorem eq_of_render_error {e : Expression} {cause : EvalError} (h : e.render.2 = .error cause) :
    e.text = none ∧ e.render.1 = e := by
  unfold render at h ⊢
  split at h
  next text kept => cases h
  next none =>
    rw [none]
    split at h
    next text found => cases h
    next cause' failed => exact ⟨rfl, rfl⟩

theorem TextHolds.text_render {e : Expression} (h : e.TextHolds) :
    e.render.1.text = (rendering e.tokens).toOption := by
  unfold Expression.render
  split
  next text kept => rw [h text kept, kept]; rfl
  next none =>
    split
    next text found => rw [found]; rfl
    next cause failed => rw [failed, none]; rfl

theorem text_step (level : Log.Level) (e : Expression) {s : Step} (other : s ≠ .render) :
    (e.step level s).1.text = e.text :=
  congrArg (·.1.text) (e.step_withText e.text level other)

def Step.asksText : Step → Bool
  | .render => true
  | _ => false

theorem Step.asksText_eq_false {s : Step} (other : s ≠ .render) : s.asksText = false := by
  cases s with
  | render => exact absurd rfl other
  | _ => rfl

/-- The expression has the given tokens, and it keeps the text that they have if it was asked for
one, and none otherwise. -/
structure KeepsSince (ts : List Token) (asked : Bool) (e : Expression) : Prop where
  tokens : e.tokens = ts
  text : e.text = if asked then (rendering ts).toOption else none

namespace KeepsSince

variable {ts : List Token} {asked : Bool} {e : Expression}

theorem holds (h : e.KeepsSince ts asked) : e.TextHolds := by
  intro text kept
  rw [h.text] at kept
  split at kept
  · rw [h.tokens]
    cases outcome : rendering ts with
    | ok found => rw [outcome] at kept; cases kept; rfl
    | error cause => rw [outcome] at kept; cases kept
  · cases kept

theorem step (h : e.KeepsSince ts asked) (level : Log.Level) (s : Step) :
    (e.step level s).1.KeepsSince ts (asked || s.asksText) := by
  refine ⟨(keeps_step level e s).tokens.trans h.tokens, ?_⟩
  by_cases render : s = .render
  · subst render
    rw [Step.asksText, Bool.or_true, if_pos rfl, ← h.tokens]
    exact h.holds.text_render
  · rw [text_step level e render, Step.asksText_eq_false render, Bool.or_false]
    exact h.text

theorem copy (h : e.KeepsSince ts asked) : e.copy.KeepsSince ts asked := ⟨h.tokens, h.text⟩

theorem leftover (h : e.KeepsSince ts asked) (cells : Leftover) :
    KeepsSince ts asked (e.withLeftover cells) := ⟨h.tokens, h.text⟩

end KeepsSince

theorem Reachable.keepsSince {e : Expression} (h : Reachable e) :
    e.KeepsSince e.tokens e.text.isSome := by
  refine ⟨rfl, ?_⟩
  cases kept : e.text with
  | none => rfl
  | some text => rw [h.text text kept]; rfl

/-- Whatever it keeps, the expression is rendered as the given tokens are. -/
structure RendersAs (ts : List Token) (e : Expression) : Prop where
  tokens : e.tokens = ts
  /-- No text is kept, or the one that the tokens have. -/
  kept : e.text = none ∨ ∃ text, e.text = some text ∧ rendering ts = .ok text
  /-- The result is that of a rendering of the tokens, be it a text or an error. -/
  outcome : ∀ level, (e.step level .render).2.result = ofEval .text (rendering ts)
  /-- Where that is an error no text was kept before, and none is afterwards. -/
  failed : ∀ level cause, (e.step level .render).2.result = .error cause →
    e.text = none ∧ (e.step level .render).1 = e

theorem KeepsSince.rendersAs {ts : List Token} {asked : Bool} {e : Expression}
    (h : e.KeepsSince ts asked) : e.RendersAs ts where
  tokens := h.tokens
  kept := by
    cases kept : e.text with
    | none => exact .inl rfl
    | some text => exact .inr ⟨text, rfl, h.tokens ▸ h.holds text kept⟩
  outcome level := by
    rw [← h.tokens, ← h.holds.render]
    rfl
  failed level cause error := by
    cases outcome : e.render.2 with
    | ok text =>
      have found : ofEval .text e.render.2 = .error cause := error
      rw [outcome] at found; cases found
    | error cause' => exact eq_of_render_error outcome

/-- A rendering ends with a text, or with a fault in the shape of the sequence. -/
def RendersInShape (e : Expression) (level : Log.Level) : Prop :=
  (∃ text, (e.step level .render).2.result = .ok (.text text)) ∨
    ∃ cause, cause.inShape = true ∧ (e.step level .render).2.result = .error (.eval cause)

/-- It does exactly if it comes to no operation whose count was given as a number with a point. -/
theorem RendersAs.rendersInShape_iff {ts : List Token} {e : Expression} (h : e.RendersAs ts)
    (level : Log.Level) : e.RendersInShape level ↔
      ∀ a ∈ Rendering.interpretation.applications [] ts, a.1.count.isIndex = true := by
  rw [← rendering_inShape_iff, RendersInShape, h.outcome level]
  cases rendering ts with
  | ok text => exact ⟨fun _ => nofun, fun _ => .inl ⟨text, rfl⟩⟩
  | error cause =>
    constructor
    · rintro (⟨text, found⟩ | ⟨cause', shape, failed⟩)
      · cases found
      · cases failed
        rintro _ ⟨⟩
        exact shape
    · exact fun shape => .inr ⟨cause, shape cause rfl, rfl⟩

/-- A tree of an operator whose count was given as a number with a point: its listing is rendered to
nothing, and that for another reason than its shape. -/
theorem render_pointed :
    let t := Tree.node Meanings.pointedOperator [.number 1.0, .number 2.0]
    t.WellFormed ∧ (ofTokens t.postorder [] {}).Reachable ∧
      ((ofTokens t.postorder [] {}).step .silent .render).2.result = .error (.eval .notSlice) ∧
      ¬ (ofTokens t.postorder [] {}).RendersInShape .silent := by
  refine ⟨⟨rfl, trivial, trivial, trivial⟩, .made .., rfl, ?_⟩
  rintro (⟨text, found⟩ | ⟨cause, shape, failed⟩)
  · cases found
  · cases failed
    cases shape

end Expression

/-! ## Families -/

namespace Family

/-- Which members were asked for a text, or were copied from one that had been, after one more
event. -/
def noteAsked (asked : List Bool) : Event → List Bool
  | .on i s => asked.modify i (· || s.asksText)
  | .copy i => asked ++ asked[i]?.toList
  | .leftover .. => asked

def askedAfter (asked : List Bool) (script : List Event) : List Bool :=
  script.foldl noteAsked asked

/-- Every member keeps the text that it is noted to have been asked for. -/
structure Noted (ts : List Token) (f : Family) (asked : List Bool) : Prop where
  length : asked.length = f.length
  keeps : ∀ {k : Nat} {e : Expression} {b : Bool}, f[k]? = some e → asked[k]? = some b →
    e.KeepsSince ts b

namespace Noted

variable {level : Log.Level} {ts : List Token} {f : Family} {asked : List Bool}

theorem length_noteAsked (h : Noted ts f asked) (ev : Event) :
    (noteAsked asked ev).length = (Family.happen level f ev).length := by
  cases ev with
  | on i s => simp [Family.happen, noteAsked, h.length]
  | leftover i cells => simp [Family.happen, noteAsked, h.length]
  | copy i => simp [Family.happen, noteAsked, h.length, Option.length_toList]

theorem happen (h : Noted ts f asked) (ev : Event) :
    Noted ts (Family.happen level f ev) (noteAsked asked ev) := by
  refine ⟨h.length_noteAsked ev, fun {k e' b} member noted => ?_⟩
  rcases member_happen member with ⟨e, found, rfl⟩ | ⟨i, source, rfl, rfl, found, rfl⟩
  · cases ev with
    | on i s =>
      rw [noteAsked, List.getElem?_modify] at noted
      obtain ⟨was, before, rfl⟩ := Option.map_eq_some_iff.mp noted
      rw [become]
      split
      · exact (h.keeps found before).step level s
      · exact h.keeps found before
    | leftover i cells =>
      rw [become]
      split
      · exact (h.keeps found noted).leftover cells
      · exact h.keeps found noted
    | copy i =>
      have old : k < asked.length := h.length ▸ (List.getElem?_eq_some_iff.mp found).1
      rw [noteAsked, List.getElem?_append_left old] at noted
      exact h.keeps found noted
  · -- A copy is noted as its source is.
    rw [noteAsked, List.getElem?_append_right (Nat.le_of_eq h.length)] at noted
    have before := Option.mem_toList.mp (List.mem_of_getElem? noted)
    exact (h.keeps found before).copy

theorem after (h : Noted ts f asked) (script : List Event) :
    Noted ts (Family.after level f script) (askedAfter asked script) := by
  induction script generalizing f asked with
  | nil => exact h
  | cons ev rest ih => exact ih (h.happen ev)

end Noted

/-- **The kept text is never seen.** Whatever is done with a reached expression, its copies and
theirs, in every state every member keeps no text or the one of the tokens, and a rendering of it
ends as one of the tokens does, always with the same text or with the same error; where that is an
error, no text was kept and none is afterwards. A text is kept exactly by the members that were
asked for one, or whose source was before they were made, if the tokens have one. The result is a
text or a fault in the shape of the sequence, exactly if the rendering comes to no operation whose
count was given as a number with a point. -/
theorem text_member {e : Expression} (reached : e.Reachable) (level : Log.Level)
    (script : List Event) {k : Nat} {e' : Expression}
    (member : (after level [e] script)[k]? = some e') :
    e'.RendersAs e.tokens ∧
      (∃ asked, (askedAfter [e.text.isSome] script)[k]? = some asked ∧
        e'.text = if asked then (rendering e.tokens).toOption else none) ∧
      ∀ level', e'.RendersInShape level' ↔
        ∀ a ∈ Rendering.interpretation.applications [] e.tokens, a.1.count.isIndex = true := by
  have start : Noted e.tokens [e] [e.text.isSome] := by
    refine ⟨rfl, fun {k e' b} member noted => ?_⟩
    obtain ⟨first, rfl⟩ := List.getElem?_eq_some_iff.mp member
    cases Nat.lt_one_iff.mp first
    cases noted
    exact reached.keepsSince
  have noted : Noted e.tokens (after level [e] script) (askedAfter [e.text.isSome] script) :=
    start.after script
  have below : k < (askedAfter [e.text.isSome] script).length := by
    rw [noted.length]
    exact (List.getElem?_eq_some_iff.mp member).1
  have keeps := noted.keeps member (List.getElem?_eq_getElem below)
  exact ⟨keeps.rendersAs, ⟨_, List.getElem?_eq_getElem below, keeps.text⟩,
    keeps.rendersAs.rendersInShape_iff⟩

/-- A copy is made before a text is asked for, and one after it; the first is evaluated and copied
again, the second gets a binding. -/
def shared : List Event :=
  [.copy 0, .on 0 .render, .copy 0, .on 1 .evaluate, .on 2 (.bind (.text "x") (.real 3.0)), .copy 1]

def scattered : Expression := .ofTokens [.number 1.0, .number 2.0] [] {}

theorem text_member_shared :
    Expression.sample.Reachable ∧ scattered.Reachable ∧
      askedAfter [false] shared = [true, false, true, false] ∧
      rendering Expression.sample.tokens = .ok "(blend(pi, 2, e) + seven())" ∧
      (∃ e', (after .silent [Expression.sample] shared)[2]? = some e' ∧
        e'.text = some "(blend(pi, 2, e) + seven())") ∧
      (∃ e', (after .silent [Expression.sample] shared)[3]? = some e' ∧ e'.text = none ∧
        (e'.step .verbose .render).2.result = .ok (.text "(blend(pi, 2, e) + seven())")) ∧
      ∃ e', (after .silent [scattered] shared)[2]? = some e' ∧ e'.text = none ∧
        (e'.step .verbose .render).2.result = .error (.eval (.malformed 2)) := by
  have reached : Expression.sample.Reachable := .made ..
  have reached' : scattered.Reachable := .made ..
  have found : rendering Expression.sample.tokens = .ok "(blend(pi, 2, e) + seven())" := by
    decide +kernel
  obtain ⟨-, ⟨asked, noted, kept⟩, -⟩ := text_member reached .silent shared (k := 2) rfl
  obtain ⟨fresh, ⟨asked', noted', none⟩, -⟩ := text_member reached .silent shared (k := 3) rfl
  obtain ⟨failing, -, -⟩ := text_member reached' .silent shared (k := 2) rfl
  cases noted
  cases noted'
  rw [found] at kept
  have text := fresh.outcome .verbose
  rw [found] at text
  have error := failing.outcome .verbose
  exact ⟨reached, reached', rfl, found, ⟨_, rfl, kept⟩, ⟨_, rfl, none, text⟩,
    ⟨_, rfl, (failing.failed .verbose _ error).1, error⟩⟩

end Family
end ReversePolish

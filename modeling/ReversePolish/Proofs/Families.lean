/-
Families. An expression, its copies and theirs are a family, in which any member
may do a step at any time, and any may be copied. A script of a workspace is
told by one: whatever is put under which name and taken up again, its steps are
those of members of a family (`Workspace.exists_events`).
-/
import ReversePolish.Expression.Workspace
import ReversePolish.Proofs.Reachable

namespace ReversePolish
namespace Expression

abbrev Answer := Except StepError Reply × List Call

def answer (level : Log.Level) (e : Expression) (s : Step) : Answer :=
  ((e.step level s).2.result, (e.step level s).2.calls)

end Expression

/-- An expression, its copies and theirs, in the order in which they were made. -/
abbrev Family := List Expression

namespace Family

inductive Event where
  /-- A member does a step. -/
  | on (i : Nat) (s : Expression.Step)
  /-- A copy of a member joins the family. -/
  | copy (i : Nat)
  /-- Something else comes to lie in the cells of a member that were not written. -/
  | leftover (i : Nat) (cells : Expression.Leftover)

/-- The step that a member does, if the event is one of its steps. -/
def Event.stepOf? (k : Nat) : Event → Option Expression.Step
  | .on i s => if i = k then some s else none
  | _ => none

open Expression (Answer)

variable (level level' : Log.Level)

def happen (f : Family) : Event → Family
  | .on i s => f.modify i fun e => (e.step level s).1
  | .copy i => f ++ (f[i]?.map Expression.copy).toList
  | .leftover i cells => f.modify i (·.withLeftover cells)

def after (f : Family) (script : List Event) : Family := script.foldl (happen level) f

def ownSteps (k : Nat) (script : List Event) : List Expression.Step :=
  script.filterMap (Event.stepOf? k)

/-- What is answered to an event: the answer of the member that does a step, with its number. -/
def reply (f : Family) : Event → List (Nat × Answer)
  | .on i s => (f[i]?.map fun e => (i, e.answer level s)).toList
  | _ => []

/-- What all members answer in a script, in order. -/
def told : Family → List Event → List (Nat × Answer)
  | _, [] => []
  | f, ev :: rest => reply level f ev ++ told (happen level f ev) rest

def answersOn (k : Nat) (f : Family) (script : List Event) : List Answer :=
  (told level f script).filterMap fun (i, answer) => if i = k then some answer else none

variable {level level'}

theorem after_concat (f : Family) (script : List Event) (ev : Event) :
    after level f (script ++ [ev]) = happen level (after level f script) ev := by
  rw [after, List.foldl_append]
  rfl

theorem told_append (f : Family) (script later : List Event) :
    told level f (script ++ later) =
      told level f script ++ told level (after level f script) later := by
  induction script generalizing f with
  | nil => rfl
  | cons ev rest ih =>
    rw [List.cons_append, told, told, ih, List.append_assoc]
    rfl

theorem answersOn_append (k : Nat) (f : Family) (script later : List Event) :
    answersOn level k f (script ++ later) =
      answersOn level k f script ++ answersOn level k (after level f script) later := by
  rw [answersOn, told_append, List.filterMap_append]
  rfl

theorem answersOn_cons (k : Nat) (f : Family) (ev : Event) (rest : List Event) :
    answersOn level k f (ev :: rest) =
      ((ev.stepOf? k).bind fun s => f[k]?.map (·.answer level s)).toList ++
        answersOn level k (happen level f ev) rest := by
  rw [answersOn, told, List.filterMap_append]
  congr 1
  cases ev with
  | on i s =>
    by_cases own : i = k
    · subst own
      cases member : f[i]? <;> simp [reply, Event.stepOf?, member]
    · cases member : f[i]? <;> simp [reply, Event.stepOf?, member, own]
  | copy i => rfl
  | leftover i cells => rfl

/-! ## Members -/

theorem length_happen_le (f : Family) (ev : Event) : f.length ≤ (happen level f ev).length := by
  cases ev with
  | on i s => simp [happen]
  | copy i => simp [happen]
  | leftover i cells => simp [happen]

theorem length_le_after (f : Family) (script : List Event) :
    f.length ≤ (after level f script).length := by
  induction script generalizing f with
  | nil => exact Nat.le_refl _
  | cons ev rest ih => exact Nat.le_trans (length_happen_le f ev) (ih _)

/-- What an event makes of a member. -/
def become (level : Log.Level) (k : Nat) (e : Expression) : Event → Expression
  | .on i s => if i = k then (e.step level s).1 else e
  | .copy _ => e
  | .leftover i cells => if i = k then e.withLeftover cells else e

/-- Who is there after an event was there before it, or is the copy that was made. -/
theorem member_happen {f : Family} {ev : Event} {k : Nat} {e' : Expression}
    (member : (happen level f ev)[k]? = some e') :
    (∃ e, f[k]? = some e ∧ e' = become level k e ev) ∨
      ∃ i source, ev = .copy i ∧ k = f.length ∧ f[i]? = some source ∧ e' = source.copy := by
  cases ev with
  | on i s | leftover i cells =>
    rw [happen, List.getElem?_modify] at member
    obtain ⟨e, found, rfl⟩ := Option.map_eq_some_iff.mp member
    exact .inl ⟨e, found, rfl⟩
  | copy i =>
    rw [happen] at member
    rcases Nat.lt_or_ge k f.length with old | new
    · rw [List.getElem?_append_left old] at member
      exact .inl ⟨e', member, rfl⟩
    · rw [List.getElem?_append_right new] at member
      obtain ⟨source, found, rfl⟩ :=
        Option.map_eq_some_iff.mp (Option.mem_toList.mp (List.mem_of_getElem? member))
      have first := (List.getElem?_eq_some_iff.mp member).1
      simp only [found, Option.map_some, Option.toList_some, List.length_singleton] at first
      exact .inr ⟨i, source, rfl, by omega, found, rfl⟩

theorem answersOn_unborn {k : Nat} {f : Family} {script : List Event}
    (unborn : (after level f script).length ≤ k) : answersOn level k f script = [] := by
  induction script generalizing f with
  | nil => rfl
  | cons ev rest ih =>
    have none : f[k]? = none :=
      List.getElem?_eq_none (Nat.le_trans (length_le_after f (ev :: rest)) unborn)
    rw [answersOn_cons, none, ih unborn]
    cases ev.stepOf? k <;> rfl

theorem reachable_become {e : Expression} (h : e.Reachable) (k : Nat) (ev : Event) :
    (become level k e ev).Reachable := by
  cases ev with
  | on i s =>
    rw [become]
    split
    · exact h.step level s
    · exact h
  | copy i => exact h
  | leftover i cells =>
    rw [become]
    split
    · exact h.leftover cells
    · exact h

theorem reachable_after {f : Family} (reached : ∀ e ∈ f, e.Reachable) (script : List Event) :
    ∀ e ∈ after level f script, e.Reachable := by
  induction script generalizing f with
  | nil => exact reached
  | cons ev rest ih =>
    refine ih fun e' he => ?_
    obtain ⟨k, member⟩ := List.mem_iff_getElem?.mp he
    rcases member_happen member with ⟨e, found, rfl⟩ | ⟨i, source, -, -, found, rfl⟩
    · exact reachable_become (reached e (List.mem_of_getElem? found)) k ev
    · exact (reached source (List.mem_of_getElem? found)).copy

end Family

namespace Workspace

/-! ## What is found in a workspace -/

theorem find?_put_other (w : Workspace) {key other : Key} (e : Expression) (hne : other ≠ key) :
    (w.put key e).find? other = w.find? other := by
  have skip : (other == key) = false := by simpa using hne
  unfold find? kept put
  cases hp : w.place with
  | none => simp [List.lookup_cons, skip, lookup_without hne]
  | some place =>
    by_cases same : place = key
    · simp [same, List.lookup_cons, skip, lookup_without hne]
    · simp [same, List.lookup_cons, skip, lookup_without hne]

theorem find?_use {w : Workspace} {key : Key} {e : Expression} (found : w.find? key = some e)
    (other : Key) : (w.use key e).find? other = w.find? other := by
  by_cases same : other = key
  · subst same
    simp [find?, kept, use, ← found]
  · have skip : (other == key) = false := by simpa using same
    simp [find?, kept, use, List.lookup_cons, skip, lookup_without same]

theorem find?_here (w : Workspace) (e : Expression) (key : Key) :
    ({ w with here := e } : Workspace).find? key =
      if w.place = some key then some e else w.find? key := by
  unfold find? kept
  cases hp : w.place with
  | none => simp
  | some place =>
    by_cases same : place = key
    · simp [same]
    · have skip : (key == place) = false := by simpa using Ne.symm same
      simp [same, List.lookup_cons, skip]

theorem find?_start (name : String) (e : Expression) (key : Key) :
    (start name e).find? key = if key = .text name then some e else none := by
  simp only [start, find?, kept, List.lookup_cons, List.lookup_nil]
  by_cases same : key = .text name
  · simp [same]
  · rw [beq_eq_false_iff_ne.mpr same, if_neg same]

/-! ## A workspace as a family -/

/-- Which members of a family the expressions of a workspace are: the one that is worked on, and
what is found under a key. -/
structure Places (f : Family) (w : Workspace) (now : Nat) (who : Key → Option Nat) : Prop where
  here : f[now]? = some w.here
  place : ∀ key, w.place = some key ↔ who key = some now
  found : ∀ key e, w.find? key = some e → ∃ i, who key = some i ∧ f[i]? = some e
  born : ∀ key i, who key = some i → i < f.length
  once : ∀ key key' i, who key = some i → who key' = some i → key = key'

/-- What a workspace answers to a step that is done on an expression. -/
def reply (level : Log.Level) (w : Workspace) : Step → List Expression.Answer
  | .on s => [w.here.answer level s]
  | _ => []

/-- What it answers to all of them, in order. -/
def told (level : Log.Level) : Workspace → List Step → List Expression.Answer
  | _, [] => []
  | w, s :: rest => w.reply level s ++ told level (w.step level s).1 rest

namespace Places

variable {f : Family} {w : Workspace} {now : Nat} {who : Key → Option Nat}

theorem on (h : Places f w now who) (e : Expression) :
    Places (f.modify now fun _ => e) { w with here := e } now who where
  here := by simp [h.here]
  place := h.place
  found := by
    intro key e' found
    rw [find?_here] at found
    split at found
    next own =>
      cases found
      exact ⟨now, (h.place key).mp own, by simp [h.here]⟩
    next other =>
      obtain ⟨i, member, there⟩ := h.found key e' found
      have ne : now ≠ i := by
        rintro rfl
        exact other ((h.place key).mpr member)
      exact ⟨i, member, by simp [ne, there]⟩
  born := by simpa using h.born
  once := h.once

/-- A new member is kept under a key; who was found there is found no more. -/
theorem put (h : Places f w now who) (key : Key) (e : Expression) :
    Places (f ++ [e]) (w.put key e) now fun k => if k = key then some f.length else who k where
  here := by
    rw [List.getElem?_append_left (List.getElem?_eq_some_iff.mp h.here).1]
    exact h.here
  place := by
    intro k
    have below : now < f.length := (List.getElem?_eq_some_iff.mp h.here).1
    by_cases same : k = key
    · subst same
      simp only [Workspace.put, if_true]
      constructor
      · intro hk
        split at hk
        · cases hk
        next other => exact absurd hk other
      · intro hk
        cases hk
        exact absurd below (Nat.lt_irrefl _)
    · simp only [Workspace.put, same, if_false, ← h.place]
      split
      next own => simp [own, Ne.symm same]
      next => rfl
  found := by
    intro k e' found
    by_cases same : k = key
    · subst same
      rw [find?_put_self] at found
      cases found
      exact ⟨f.length, by simp, by simp⟩
    · rw [find?_put_other w e same] at found
      obtain ⟨i, member, there⟩ := h.found k e' found
      refine ⟨i, by simp [same, member], ?_⟩
      rw [List.getElem?_append_left (h.born k i member)]
      exact there
  born := by
    intro k i member
    rw [List.length_append, List.length_singleton]
    split at member
    · cases member; exact Nat.lt_succ_self _
    · exact Nat.lt_succ_of_lt (h.born k i member)
  once := by
    intro k k' i hk hk'
    -- The number of the new member is one past all that were there.
    have new {k : Key} (hk : who k = some f.length) : False :=
      Nat.lt_irrefl _ (h.born k _ hk)
    split at hk <;> split at hk'
    next same same' => rw [same, same']
    next => cases hk; exact (new hk').elim
    next => cases hk'; exact (new hk).elim
    next => exact h.once k k' i hk hk'

/-- The member that is found under a key is worked on, and all are found as before. -/
theorem use (h : Places f w now who) {key : Key} {e : Expression} (found : w.find? key = some e) :
    ∃ i, Places f (w.use key e) i who := by
  obtain ⟨i, member, there⟩ := h.found key e found
  refine ⟨i, there, fun k => ⟨?_, fun same => ?_⟩, fun k e' => ?_, h.born, h.once⟩
  · rintro ⟨⟩
    exact member
  · exact congrArg some (h.once _ _ _ member same)
  · rw [find?_use found]
    exact h.found k e'

/-- A step of the workspace is one of the member that is worked on, makes a copy of it, or does
nothing to the family. -/
theorem step (h : Places f w now who) (level : Log.Level) (s : Step) :
    ∃ events now' who', Places (Family.after level f events) (w.step level s).1 now' who' ∧
      (Family.told level f events).map (·.2) = w.reply level s := by
  cases s with
  | on s =>
    have next := h.on (w.here.step level s).1
    have happened : f.modify now (fun _ => (w.here.step level s).1) =
        Family.after level f [.on now s] := by
      refine List.ext_getElem? fun i => ?_
      by_cases own : now = i
      · subst own
        simp [Family.after, Family.happen, h.here]
      · simp [Family.after, Family.happen, own]
    rw [happened] at next
    exact ⟨_, now, who, next, by simp [Family.told, Family.reply, h.here, reply]⟩
  | copy name =>
    simp only [Workspace.step]
    split
    next name _ =>
      have next := h.put name.key w.here.copy
      have happened : f ++ [w.here.copy] = Family.after level f [.copy now] := by
        simp [Family.after, Family.happen, h.here]
      rw [happened] at next
      exact ⟨_, now, _, next, rfl⟩
    · exact ⟨[], now, who, h, rfl⟩
  | use name =>
    simp only [Workspace.step]
    split
    · split
      next e found =>
        obtain ⟨i, next⟩ := h.use found
        exact ⟨[], i, who, next, rfl⟩
      · exact ⟨[], now, who, h, rfl⟩
    · exact ⟨[], now, who, h, rfl⟩

end Places

theorem told_eq_family (level : Log.Level) {f : Family} {w : Workspace} {now : Nat}
    {who : Key → Option Nat} (h : Places f w now who) (script : List Step) :
    ∃ events, (Family.told level f events).map (·.2) = w.told level script := by
  induction script generalizing f w now who with
  | nil => exact ⟨[], rfl⟩
  | cons s rest ih =>
    obtain ⟨events, now', who', next, first⟩ := h.step level s
    obtain ⟨later, rest'⟩ := ih next
    refine ⟨events ++ later, ?_⟩
    rw [Family.told_append, List.map_append, first, rest', told]

/-- An expression that is worked on alone is the first member of a family. -/
theorem places_start (name : String) (e : Expression) :
    Places [e] (start name e) 0 fun key => if key = .text name then some 0 else none where
  here := rfl
  place key := by simp [start, eq_comm]
  found key e' found := by
    rw [find?_start] at found
    split at found
    next same =>
      cases found
      exact ⟨0, if_pos same, rfl⟩
    · cases found
  born key i member := by
    split at member <;> cases member
    exact Nat.zero_lt_one
  once key key' i hk hk' := by
    split at hk <;> split at hk'
    next same same' => exact same.trans same'.symm
    all_goals contradiction

/-- **Every script of a workspace is one of a family**: what is answered to its steps on expressions
is what the members of a family answer, which begins with the same expression. -/
theorem exists_events (level : Log.Level) (name : String) (e : Expression) (script : List Step) :
    ∃ events, (Family.told level [e] events).map (·.2) = (start name e).told level script :=
  told_eq_family level (places_start name e) script

end Workspace
end ReversePolish

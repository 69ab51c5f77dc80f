/-
Where a script leads. `after` is the workspace at its end, and what holds of an
expression, of whatever comes of it by a step and of its copies holds of every
expression that any script leaves in a workspace (`forall_after`).
-/
import ReversePolish.Expression.Workspace

namespace ReversePolish
namespace Workspace

/-- All expressions of a workspace, the one that is worked on first. -/
def expressions (w : Workspace) : List Expression := w.here :: w.others.map (·.2)

def after (level : Log.Level) (w : Workspace) (script : List Step) : Workspace :=
  ((w.steps level script).getLast?.map (·.2)).getD w

@[simp] theorem after_cons (level : Log.Level) (w : Workspace) (s : Step) (rest : List Step) :
    w.after level (s :: rest) = (w.step level s).1.after level rest := by
  simp only [after, steps, List.getLast?_cons]
  cases ((w.step level s).1.steps level rest).getLast? <;> rfl

theorem after_append (level : Log.Level) (w : Workspace) (script later : List Step) :
    w.after level (script ++ later) = (w.after level script).after level later := by
  induction script generalizing w with
  | nil => rfl
  | cons s rest ih => rw [List.cons_append, after_cons, after_cons, ih]

/-! ## What holds of every expression -/

theorem mem_of_lookup {entries : List (Key × Expression)} {key : Key} {e : Expression}
    (h : entries.lookup key = some e) : ∃ entry ∈ entries, entry.2 = e := by
  obtain ⟨before, after, rfl, -⟩ := List.lookup_eq_some_iff.mp h
  exact ⟨(key, e), by simp, rfl⟩

theorem mem_expressions_of_kept {w : Workspace} {entry : Key × Expression} (h : entry ∈ w.kept) :
    entry.2 ∈ w.expressions := by
  unfold kept at h
  split at h
  · rcases List.mem_cons.mp h with rfl | h
    · exact List.mem_cons_self ..
    · exact List.mem_cons_of_mem _ (List.mem_map_of_mem h)
  · exact List.mem_cons_of_mem _ (List.mem_map_of_mem h)

section
variable {P : Expression → Prop} (stepped : ∀ level e s, P e → P (e.step level s).1)
  (copied : ∀ e, P e → P e.copy)
include stepped copied

/-- One step works on one expression, and what it adds is a copy of that. -/
theorem forall_step {w : Workspace} (h : ∀ e ∈ w.expressions, P e) (level : Log.Level) (s : Step) :
    ∀ e ∈ (w.step level s).1.expressions, P e := by
  have here : P w.here := h w.here (List.mem_cons_self ..)
  have others : ∀ entry ∈ w.others, P entry.2 :=
    fun entry hm => h entry.2 (List.mem_cons_of_mem _ (List.mem_map_of_mem hm))
  have kept : ∀ entry ∈ w.kept, P entry.2 :=
    fun entry hm => h entry.2 (mem_expressions_of_kept hm)
  cases s with
  | on s =>
    simp only [step, expressions, List.forall_mem_cons, List.forall_mem_map]
    exact ⟨stepped level w.here s here, others⟩
  | copy name =>
    simp only [step]
    split
    · simp only [put, without, expressions, List.map_cons, List.forall_mem_cons,
        List.forall_mem_map]
      exact ⟨here, copied w.here here,
        fun entry hm => others entry (List.mem_filter.mp hm).1⟩
    · exact h
  | use name =>
    simp only [step]
    split
    · split
      next e found =>
        obtain ⟨entry, hm, rfl⟩ := mem_of_lookup found
        simp only [use, without, expressions, List.forall_mem_cons, List.forall_mem_map]
        exact ⟨kept entry hm, fun other ho => kept other (List.mem_filter.mp ho).1⟩
      · exact h
    · exact h

/-- **What steps and copies keep holds throughout**, of every expression after every script. -/
theorem forall_after {w : Workspace} (h : ∀ e ∈ w.expressions, P e) (level : Log.Level)
    (script : List Step) : ∀ e ∈ (w.after level script).expressions, P e := by
  induction script generalizing w with
  | nil => exact h
  | cons s rest ih =>
    rw [after_cons]
    exact ih (forall_step stepped copied h level s)

end

end Workspace
end ReversePolish

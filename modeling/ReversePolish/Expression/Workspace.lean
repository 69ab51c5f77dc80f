/-
Several expressions by name, one of which is worked on. Copies of it can be
put under names, and the work can go on with another. A copy that is put under
the name of the one that is worked on takes its place: the work goes on with
an expression that is kept nowhere, and ends when another one is taken up.
-/
import ReversePolish.Expression.Step

namespace ReversePolish

structure Workspace where
  /-- The name under which the expression that is worked on is kept. -/
  place : Option Key
  here : Expression
  /-- What is kept under other names. -/
  others : List (Key × Expression)

namespace Workspace

inductive Step where
  | on (step : Expression.Step)
  | copy (name : Datum)
  /-- Goes on with the expression of a name. -/
  | use (name : Datum)

def start (name : String) (e : Expression) : Workspace := ⟨some (.text name), e, []⟩

/-- All that is kept, by name. -/
def kept (w : Workspace) : List (Key × Expression) :=
  match w.place with
  | some key => (key, w.here) :: w.others
  | none => w.others

def find? (w : Workspace) (key : Key) : Option Expression := w.kept.lookup key

/-- What is kept under keys other than the given one. -/
def without (entries : List (Key × Expression)) (key : Key) : List (Key × Expression) :=
  entries.filter fun entry => entry.1 != key

/-- Keeps an expression under a key, in the place of what was kept there. -/
def put (w : Workspace) (key : Key) (e : Expression) : Workspace :=
  { w with
    place := if w.place = some key then none else w.place
    others := (key, e) :: without w.others key }

def use (w : Workspace) (key : Key) (e : Expression) : Workspace :=
  ⟨some key, e, without w.kept key⟩

def step (level : Log.Level) (w : Workspace) : Step → Workspace × Expression.Report
  | .on s =>
    let (e, report) := w.here.step level s
    ({ w with here := e }, report)
  | .copy name => match Name.ofDatum? name with
    | .ok name => (w.put name.key w.here.copy, .pure (.ok .copied))
    | .error cause => (w, .pure (.error (.key cause)))
  | .use name => match Name.ofDatum? name with
    | .ok name => match w.find? name.key with
      | some e => (w.use name.key e, .pure (.ok (.name name)))
      | none => (w, .pure (.error (.noEntry name)))
    | .error cause => (w, .pure (.error (.key cause)))

/-- The steps one after the other: each report with the workspace after it. -/
def steps (level : Log.Level) (w : Workspace) : List Step → List (Expression.Report × Workspace)
  | [] => []
  | s :: rest =>
    let (w, report) := w.step level s
    (report, w) :: w.steps level rest

/-! ## What is kept -/

theorem lookup_without {entries : List (Key × Expression)} {key other : Key}
    (hne : other ≠ key) : (without entries key).lookup other = entries.lookup other := by
  induction entries with
  | nil => rfl
  | cons entry entries ih =>
    obtain ⟨old, e⟩ := entry
    by_cases hk : old = key
    · subst hk
      have hb : (other == old) = false := by simpa using hne
      simpa [without, List.lookup_cons, hb] using ih
    · have hb : (old != key) = true := by simpa using hk
      simp only [without, List.filter_cons, hb, if_true, List.lookup_cons]
      split
      · rfl
      · exact ih

theorem find?_put_self (w : Workspace) (key : Key) (e : Expression) :
    (w.put key e).find? key = some e := by
  unfold find? kept put
  by_cases h : w.place = some key
  · simp [h]
  · simp only [h, if_false]
    cases hp : w.place with
    | none => simp
    | some p =>
      have hb : (key == p) = false := by
        simp only [beq_eq_false_iff_ne]
        exact fun hn => h (by rw [hp, hn])
      simp [List.lookup_cons, hb]

end Workspace
end ReversePolish

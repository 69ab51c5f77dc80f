/-
The values of variables, in the order in which the names were first bound.
Binding a name again changes its value and neither its place nor the way in
which it is written.

Bindings have no cells: a value lies with its name, and two expressions that
share a cell cannot be written down. That a copy of an expression has cells of
its own is therefore in the form of the data, and nothing that is proved here.
-/
import ReversePolish.Name

namespace ReversePolish

structure Binding where
  name : Name
  value : Float

structure Bindings where
  entries : List Binding

namespace Bindings

def empty : Bindings := ⟨[]⟩

def binding? (entries : List Binding) (key : Key) : Option Binding :=
  entries.find? (·.name.key == key)

/-- The value that is bound under a key. -/
def find? (b : Bindings) (key : Key) : Option Float := (binding? b.entries key).map (·.value)

def value? (b : Bindings) (variableName : String) : Option Float := b.find? (.text variableName)

def contains (b : Bindings) (key : Key) : Bool := (b.find? key).isSome

/-- The same entries with another value under a key. -/
def overwrite (entries : List Binding) (key : Key) (value : Float) : List Binding :=
  entries.map fun old => if old.name.key == key then { old with value := value } else old

def set (b : Bindings) (name : Name) (value : Float) : Bindings :=
  if b.contains name.key then ⟨overwrite b.entries name.key value⟩
  else ⟨b.entries ++ [⟨name, value⟩]⟩

def names (b : Bindings) : List Name := b.entries.map (·.name)

/-! ## What setting a name does -/

theorem binding?_overwrite_self (entries : List Binding) (key : Key) (value : Float) :
    binding? (overwrite entries key value) key =
      (binding? entries key).map ({ · with value := value }) := by
  induction entries with
  | nil => rfl
  | cons old entries ih =>
    by_cases h : old.name.key = key
    · simp [binding?, overwrite, h]
    · simpa [binding?, overwrite, h] using ih

theorem binding?_overwrite_other {key other : Key} (hne : other ≠ key) (entries : List Binding)
    (value : Float) : binding? (overwrite entries key value) other = binding? entries other := by
  induction entries with
  | nil => rfl
  | cons old entries ih =>
    by_cases h : old.name.key = key
    · have ho : ¬ old.name.key = other := fun e => hne (by rw [← e, h])
      simpa [binding?, overwrite, h, Ne.symm hne] using ih
    · by_cases ho : old.name.key = other
      · simp [binding?, overwrite, ho, hne]
      · simpa [binding?, overwrite, h, ho] using ih

@[simp] theorem find?_set_self (b : Bindings) (name : Name) (value : Float) :
    (b.set name value).find? name.key = some value := by
  unfold set contains
  split
  next h =>
    obtain ⟨x, hx⟩ := Option.isSome_iff_exists.1 h
    obtain ⟨old, ho, _⟩ := Option.map_eq_some_iff.1 hx
    simp [find?, binding?_overwrite_self, ho]
  next h =>
    have hn : binding? b.entries name.key = none :=
      Option.map_eq_none_iff.1 (Option.not_isSome_iff_eq_none.1 h)
    simp only [binding?] at hn
    simp [find?, binding?, List.find?_append, hn]

theorem find?_set_other (b : Bindings) {name : Name} {key : Key} (hne : key ≠ name.key)
    (value : Float) : (b.set name value).find? key = b.find? key := by
  unfold set
  split
  · simp [find?, binding?_overwrite_other hne]
  · simp [find?, binding?, List.find?_append, Ne.symm hne]

/-- A key is bound if it was bound before or its name has just been set. -/
@[simp] theorem contains_set (b : Bindings) (name : Name) (key : Key) (value : Float) :
    (b.set name value).contains key = (key == name.key || b.contains key) := by
  by_cases h : key = name.key
  · subst h; simp [contains]
  · simp [contains, find?_set_other b h, beq_eq_false_iff_ne.2 h]

/-- A name that is bound already keeps its place, and a new one comes last. -/
theorem names_set (b : Bindings) (name : Name) (value : Float) :
    (b.set name value).names =
      if b.contains name.key then b.names else b.names ++ [name] := by
  unfold set
  split
  next =>
    simp only [names, overwrite, List.map_map]
    refine List.map_congr_left fun old _ => ?_
    by_cases h : old.name.key = name.key
    · simp [h]
    · simp [h]
  next => simp [names]

end Bindings
end ReversePolish

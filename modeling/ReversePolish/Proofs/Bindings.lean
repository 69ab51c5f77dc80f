/-
Bindings after any number of settings, one after the other. The value under a
key is the one that was set last (`find?_setAll`); the names are those there
were, and behind them the others in the order in which they were first set
(`names_setAll`). No key has two entries, if none had.
-/
import ReversePolish.Bindings

namespace ReversePolish
namespace Name

theorem distinct_cons (n : Name) (rest : List Name) :
    distinct (n :: rest) = n :: distinct (rest.filter fun m => m.key != n.key) := by
  unfold distinct
  rw [List.eraseDupsBy_cons]
  congr 2
  refine List.filter_congr fun m _ => ?_
  cases h : m.key == n.key <;> simp [bne, h]

/-- Of the names that pass, each is kept once, wherever names of one key pass together. -/
theorem distinct_filter {p : Name → Bool} (hp : ∀ m n : Name, m.key = n.key → p m = p n) :
    ∀ names : List Name, (distinct names).filter p = distinct (names.filter p)
  | [] => rfl
  | n :: rest => by
    have ih := distinct_filter hp (rest.filter fun m => m.key != n.key)
    rw [distinct_cons, List.filter_cons, ih, List.filter_cons, List.filter_filter]
    cases pass : p n with
    | true =>
      simp only [if_true]
      rw [distinct_cons, List.filter_filter]
      simp only [Bool.and_comm]
    | false =>
      -- Names with the key of one that does not pass do not pass either.
      simp only [Bool.false_eq_true, if_false]
      congr 1
      refine List.filter_congr fun m _ => ?_
      cases hm : p m with
      | false => rfl
      | true =>
        have other : m.key ≠ n.key := fun same => by rw [hp m n same, pass] at hm; cases hm
        rw [Bool.true_and, bne_iff_ne.mpr other]
  termination_by names => names.length
  decreasing_by exact Nat.lt_succ_of_le (List.length_filter_le ..)

end Name

namespace Bindings

def setAll (b : Bindings) (sets : List Binding) : Bindings :=
  sets.foldl (fun b s => b.set s.name s.value) b

/-- The value that was set last under a key. -/
def lastSet? (sets : List Binding) (key : Key) : Option Float :=
  (binding? sets.reverse key).map (·.value)

@[simp] theorem setAll_cons (b : Bindings) (s : Binding) (rest : List Binding) :
    b.setAll (s :: rest) = (b.set s.name s.value).setAll rest := rfl

theorem setAll_append (b : Bindings) (sets later : List Binding) :
    b.setAll (sets ++ later) = (b.setAll sets).setAll later := List.foldl_append

/-! ## Values -/

theorem lastSet?_cons (s : Binding) (rest : List Binding) (key : Key) :
    lastSet? (s :: rest) key =
      (lastSet? rest key).or (if s.name.key = key then some s.value else none) := by
  simp only [lastSet?, binding?, List.reverse_cons, List.find?_append]
  cases rest.reverse.find? (·.name.key == key) with
  | some last => rfl
  | none => by_cases h : s.name.key = key <;> simp [h]

/-- **The last value that was set under a key is the one that is found**, and where none was set
the one that was there. -/
theorem find?_setAll (b : Bindings) (sets : List Binding) (key : Key) :
    (b.setAll sets).find? key = (lastSet? sets key).or (b.find? key) := by
  induction sets generalizing b with
  | nil => rfl
  | cons s rest ih =>
    rw [setAll_cons, ih, lastSet?_cons, Option.or_assoc]
    by_cases h : s.name.key = key
    · rw [if_pos h, ← h, find?_set_self]
      rfl
    · rw [if_neg h, find?_set_other b (Ne.symm h)]
      rfl

/-! ## Names -/

theorem contains_iff {b : Bindings} {key : Key} :
    b.contains key = true ↔ key ∈ b.names.map Name.key := by
  simp [contains, find?, binding?, names, Function.comp_def]

/-- **New names come behind those there are**, in the order in which they were first set. -/
theorem names_setAll (b : Bindings) (sets : List Binding) :
    (b.setAll sets).names =
      b.names ++ (Name.distinct (sets.map (·.name))).filter fun n => !b.contains n.key := by
  induction sets generalizing b with
  | nil => exact (List.append_nil _).symm
  | cons s rest ih =>
    have bound (m n : Name) (h : m.key = n.key) : (!b.contains m.key) = !b.contains n.key := by
      rw [h]
    have bound' (m n : Name) (h : m.key = n.key) :
        (!(b.set s.name s.value).contains m.key) = !(b.set s.name s.value).contains n.key := by
      rw [h]
    rw [setAll_cons, ih, names_set, List.map_cons, Name.distinct_cons, List.filter_cons,
      Name.distinct_filter bound, Name.distinct_filter bound', List.filter_filter]
    simp only [contains_set, Bool.not_or, bne, Bool.and_comm]
    cases b.contains s.name.key with
    | true => rfl
    | false => exact List.append_assoc b.names [s.name] _

theorem mem_names_setAll {b : Bindings} {sets : List Binding} {n : Name}
    (h : n ∈ (b.setAll sets).names) : n ∈ b.names ∨ ∃ s ∈ sets, s.name = n := by
  induction sets generalizing b with
  | nil => exact .inl h
  | cons s rest ih =>
    rcases ih h with old | ⟨later, hl, rfl⟩
    · rw [names_set] at old
      split at old
      · exact .inl old
      · rcases List.mem_append.mp old with old | new
        · exact .inl old
        · exact .inr ⟨s, List.mem_cons_self .., (List.mem_singleton.mp new).symm⟩
    · exact .inr ⟨later, List.mem_cons_of_mem s hl, rfl⟩

theorem nodup_set {b : Bindings} (once : (b.names.map Name.key).Nodup) (name : Name)
    (value : Float) : ((b.set name value).names.map Name.key).Nodup := by
  rw [names_set]
  split
  · exact once
  next new =>
    rw [List.map_append, List.nodup_append]
    refine ⟨once, by simp, fun key hk other ho same => new ?_⟩
    rw [List.map_singleton, List.mem_singleton] at ho
    exact contains_iff.mpr (ho ▸ same ▸ hk)

theorem nodup_setAll {b : Bindings} (once : (b.names.map Name.key).Nodup) (sets : List Binding) :
    ((b.setAll sets).names.map Name.key).Nodup := by
  induction sets generalizing b with
  | nil => exact once
  | cons s rest ih => exact ih (nodup_set once s.name s.value)

/-! ## Entries -/

/-- Where no key has two entries, the value of every entry is found under its key. -/
theorem find?_of_mem {b : Bindings} (once : (b.names.map Name.key).Nodup) {entry : Binding}
    (h : entry ∈ b.entries) : b.find? entry.name.key = some entry.value := by
  obtain ⟨entries⟩ := b
  simp only [names, List.map_map, find?] at once h ⊢
  induction entries with
  | nil => cases h
  | cons first rest ih =>
    rw [List.map_cons, List.nodup_cons] at once
    rcases List.mem_cons.mp h with rfl | h
    · simp [binding?]
    · have other : first.name.key ≠ entry.name.key := fun same =>
        once.1 (List.mem_map.mpr ⟨entry, h, same.symm⟩)
      rw [binding?, List.find?_cons, beq_eq_false_iff_ne.mpr other]
      exact ih h once.2

theorem setAll_empty {sets : List Binding} (once : (sets.map (·.name.key)).Nodup) :
    empty.setAll sets = ⟨sets⟩ := by
  suffices h : ∀ before : List Binding, ((before ++ sets).map (·.name.key)).Nodup →
      setAll ⟨before⟩ sets = ⟨before ++ sets⟩ from h [] once
  clear once
  induction sets with
  | nil => exact fun before _ => by rw [List.append_nil]; rfl
  | cons s rest ih =>
    intro before once
    have new : contains ⟨before⟩ s.name.key = false := by
      rw [Bool.eq_false_iff, ne_eq, contains_iff]
      rw [List.map_append, List.nodup_append] at once
      simp only [names, List.map_map]
      exact fun hm => once.2.2 _ hm _ (List.mem_cons_self ..) rfl
    have placed : set ⟨before⟩ s.name s.value = ⟨before ++ [s]⟩ := by
      simp only [set, new, Bool.false_eq_true, if_false]
    rw [setAll_cons, placed, ih, List.append_assoc]
    · rfl
    · rwa [List.append_assoc]

theorem setAll_empty_entries {b : Bindings} (once : (b.names.map Name.key).Nodup) :
    empty.setAll b.entries = b := setAll_empty (by rwa [names, List.map_map] at once)

/-- Where no key has two entries the value that is set last under a key is the one of its entry. -/
theorem lastSet?_entries {b : Bindings} (once : (b.names.map Name.key).Nodup) (key : Key) :
    lastSet? b.entries key = b.find? key := by
  have found := find?_setAll empty b.entries key
  rw [setAll_empty_entries once] at found
  rw [found]
  exact (Option.or_none ..).symm

theorem distinct_names {b : Bindings} (once : (b.names.map Name.key).Nodup) :
    Name.distinct b.names = b.names := by
  have listed := names_setAll empty b.entries
  rw [setAll_empty_entries once] at listed
  calc Name.distinct b.names
      = (Name.distinct b.names).filter fun n => !empty.contains n.key :=
        (List.filter_eq_self.mpr fun _ _ => rfl).symm
    _ = b.names := listed.symm

/-- Where no key has two entries the names and the values tell the entries. -/
theorem eq_of_names_of_find? {b c : Bindings} (once : (b.names.map Name.key).Nodup)
    (names : c.names = b.names) (values : ∀ key, c.find? key = b.find? key) : c = b := by
  have once' : (c.names.map Name.key).Nodup := names ▸ once
  have length : c.entries.length = b.entries.length := by
    simpa [Bindings.names] using congrArg List.length names
  suffices same : c.entries = b.entries by
    cases b
    cases c
    exact congrArg Bindings.mk same
  refine List.ext_getElem length fun i hc hb => ?_
  have name : c.entries[i].name = b.entries[i].name := by
    simpa [Bindings.names] using List.getElem_of_eq names (by simpa [Bindings.names] using hc)
  have value : c.entries[i].value = b.entries[i].value := by
    have found := find?_of_mem once' (List.getElem_mem hc)
    rw [values, name, find?_of_mem once (List.getElem_mem hb)] at found
    exact (Option.some.inj found).symm
  exact (Binding.mk.injEq ..).mpr ⟨name, value⟩

/-- **Entries that are set again in their order are there already**, whatever was set before. -/
theorem setAll_entries {b : Bindings} (once : (b.names.map Name.key).Nodup) (made : List Binding) :
    b.setAll (b.setAll made).entries = b.setAll made := by
  have once' := nodup_setAll once made
  refine eq_of_names_of_find? once' ?_ fun key => ?_
  · have listed := names_setAll b made
    have old : b.names.filter (fun n => !b.contains n.key) = [] :=
      List.filter_eq_nil_iff.mpr fun n hn => by
        simpa using contains_iff.mpr (List.mem_map_of_mem hn)
    rw [names_setAll, ← names, distinct_names once', listed, List.filter_append, old,
      List.filter_filter]
    simp
  · rw [find?_setAll, lastSet?_entries once', find?_setAll, Option.or_assoc, Option.or_self]

end Bindings
end ReversePolish

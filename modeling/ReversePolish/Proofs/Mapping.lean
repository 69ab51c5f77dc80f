/-
Binding a whole mapping. It is done entry by entry, and stops at the first
entry whose name is reserved or whose value is no number. What is bound then
is what the entries before it bind one by one; the entry itself and those
after it change nothing (`Expression.bindAll_failFast`).
-/
import Mathlib.Data.List.Forall2
import Mathlib.Data.List.TakeWhile
import ReversePolish.Proofs.Bindings
import ReversePolish.Proofs.Outcome

namespace ReversePolish

namespace Name

theorem mapping_from {α : Type} (entries : List (Name × α)) :
    ∀ kept : List (Name × α), ((kept ++ entries).map (·.1.key)).Nodup →
      entries.foldl (fun kept entry =>
        if kept.any (·.1.key == entry.1.key) then
          kept.map fun old => if old.1.key == entry.1.key then (old.1, entry.2) else old
        else kept ++ [entry]) kept = kept ++ entries := by
  induction entries with
  | nil => exact fun kept _ => (List.append_nil kept).symm
  | cons entry rest ih =>
    intro kept once
    have new : kept.any (·.1.key == entry.1.key) = false := by
      refine List.any_eq_false.mpr fun old ho same => ?_
      rw [List.map_append] at once
      exact (List.nodup_append.mp once).2.2 _ (List.mem_map_of_mem ho) _
        (List.mem_map_of_mem (List.mem_cons_self ..)) (beq_iff_eq.mp same)
    rw [List.foldl_cons, new, if_neg Bool.false_ne_true, ih _ (by simpa using once)]
    simp

theorem mapping_of_nodup {α : Type} {entries : List (Name × α)}
    (once : (entries.map (·.1.key)).Nodup) : mapping entries = entries :=
  mapping_from entries [] once

end Name

namespace Expression

/-- Why an entry is refused, if it is: its name is reserved, whatever its value, or its value is no
number. -/
def refusalOf? (e : Expression) (entry : Datum × Datum) : Option BindError :=
  match Name.ofDatum? entry.1 with
  | .ok name =>
    if isReserved e.userNames name.key then some (.reserved name)
    else match entry.2.toFloat? with
      | .ok _ => none
      | .error cause => some (.value cause)
  | .error _ => none

/-- The expression after the entries were bound one by one, whether they were refused or not. -/
def bindEach (level : Log.Level) (e : Expression) (entries : List (Datum × Datum)) : Expression :=
  entries.foldl (fun e entry => (e.step level (.bind entry.1 entry.2)).1) e

/-! ## One entry -/

section
variable {e : Expression} {name : Name} {entry : Datum × Datum}

theorem named_of_refusalOf? {cause : BindError} (refused : e.refusalOf? entry = some cause) :
    ∃ name, Name.ofDatum? entry.1 = .ok name := by
  simp only [refusalOf?] at refused
  split at refused
  next name isName => exact ⟨name, isName⟩
  next => cases refused

theorem bind_taken (named : Name.ofDatum? entry.1 = .ok name) (taken : e.refusalOf? entry = none) :
    ∃ x, e.bind name entry.2 = .ok { e with bindings := e.bindings.set name x } := by
  simp only [refusalOf?, named] at taken
  cases reserved : isReserved e.userNames name.key with
  | true => simp [reserved] at taken
  | false =>
    cases read : entry.2.toFloat? with
    | error cause => simp [reserved, read] at taken
    | ok x => exact ⟨x, by simp [bind, reserved, read]⟩

theorem bind_refused {cause : BindError} (named : Name.ofDatum? entry.1 = .ok name)
    (refused : e.refusalOf? entry = some cause) : e.bind name entry.2 = .error cause := by
  simp only [refusalOf?, named] at refused
  cases reserved : isReserved e.userNames name.key with
  | true => simpa [bind, reserved] using refused
  | false =>
    cases read : entry.2.toFloat? with
    | error c => simpa [bind, reserved, read] using refused
    | ok x => simp [reserved, read] at refused

theorem step_bind (level : Log.Level) (e : Expression) (named : Name.ofDatum? entry.1 = .ok name) :
    (e.step level (.bind entry.1 entry.2)).1 = (e.bindAll [(name, entry.2)]).1 := by
  simp only [step, Expression.named, named]
  rfl

theorem step_bind_taken (level : Log.Level) (named : Name.ofDatum? entry.1 = .ok name)
    (taken : e.refusalOf? entry = none) :
    ∃ x, e.bind name entry.2 = .ok { e with bindings := e.bindings.set name x } ∧
      (e.step level (.bind entry.1 entry.2)).1 = { e with bindings := e.bindings.set name x } := by
  obtain ⟨x, bound⟩ := bind_taken named taken
  refine ⟨x, bound, ?_⟩
  rw [step_bind level e named, bindAll, bound]
  rfl

theorem step_bind_refused (level : Log.Level) {cause : BindError}
    (named : Name.ofDatum? entry.1 = .ok name) (refused : e.refusalOf? entry = some cause) :
    (e.step level (.bind entry.1 entry.2)).1 = e := by
  rw [step_bind level e named, bindAll, bind_refused named refused]

end

theorem refusalOf?_congr {e e' : Expression} (userNames : e'.userNames = e.userNames) :
    e'.refusalOf? = e.refusalOf? := by
  funext entry
  simp only [refusalOf?, userNames]

/-! ## All entries -/

/-- Entries as they are given and by their names. -/
def Named (entries : List (Datum × Datum)) (named : List (Name × Datum)) : Prop :=
  List.Forall₂ (fun given entry => Name.ofDatum? given.1 = .ok entry.1 ∧ entry.2 = given.2)
    entries named

theorem named_of_ofData? {entries : List (Datum × Datum)} {names : List Name}
    (h : Name.ofData? (entries.map (·.1)) = .ok names) :
    Named entries (names.zip (entries.map (·.2))) ∧
      (names.zip (entries.map (·.2))).map (·.1) = names := by
  induction entries generalizing names with
  | nil =>
    cases h
    exact ⟨.nil, rfl⟩
  | cons entry rest ih =>
    simp only [List.map_cons, Name.ofData?, Bind.bind, Except.bind] at h
    cases hd : Name.ofDatum? entry.1 with
    | error cause =>
      rw [hd] at h
      cases h
    | ok name =>
      cases hr : Name.ofData? (rest.map (·.1)) with
      | error cause =>
        rw [hd, hr] at h
        cases h
      | ok later =>
        rw [hd, hr] at h
        cases h
        obtain ⟨named, firsts⟩ := ih hr
        exact ⟨.cons ⟨hd, rfl⟩ named, congrArg (name :: ·) firsts⟩

/-- **The first refusal stops a mapping**, and what was bound is what came before it. -/
theorem bindAll_eq (level : Log.Level) (e : Expression) {entries : List (Datum × Datum)}
    {named : List (Name × Datum)} (h : Named entries named) :
    e.bindAll named =
      (e.bindEach level (entries.takeWhile fun entry => (e.refusalOf? entry).isNone),
        entries.findSome? e.refusalOf?) := by
  induction h generalizing e with
  | nil => rfl
  | @cons given entry entries named head _ ih =>
    obtain ⟨name, value⟩ := entry
    obtain ⟨isName, rfl⟩ := head
    cases refusal : e.refusalOf? given with
    | some cause =>
      rw [bindAll, bind_refused isName refusal, List.takeWhile_cons_of_neg (by simp [refusal]),
        List.findSome?_cons, refusal]
      rfl
    | none =>
      obtain ⟨x, bound, single⟩ := step_bind_taken level isName refusal
      rw [bindAll, bound, List.takeWhile_cons_of_pos (by simp [refusal]), List.findSome?_cons,
        refusal, bindEach, List.foldl_cons, single]
      exact ih _

theorem bindAll_taken (level : Log.Level) {e : Expression} {entries : List (Datum × Datum)}
    {named : List (Name × Datum)} (h : Named entries named)
    (taken : ∀ entry ∈ entries, e.refusalOf? entry = none) :
    e.bindAll named = (e.bindEach level entries, none) := by
  have whole : entries.takeWhile (fun entry => (e.refusalOf? entry).isNone) = entries :=
    List.takeWhile_eq_self_iff.mpr fun entry h => by rw [taken entry h]; rfl
  rw [bindAll_eq level e h, whole, List.findSome?_eq_none_iff.mpr taken]

theorem bindAll_stopped (level : Log.Level) {e : Expression}
    {entries before later : List (Datum × Datum)} {entry : Datum × Datum} {cause : BindError}
    {named : List (Name × Datum)} (h : Named entries named)
    (split : entries = before ++ entry :: later)
    (taken : ∀ earlier ∈ before, e.refusalOf? earlier = none)
    (refused : e.refusalOf? entry = some cause) :
    e.bindAll named = (e.bindEach level before, some cause) := by
  have first : entries.findSome? e.refusalOf? = some cause :=
    List.findSome?_eq_some_iff.mpr ⟨before, entry, later, split, refused, taken⟩
  have start : entries.takeWhile (fun entry => (e.refusalOf? entry).isNone) = before := by
    rw [split, List.takeWhile_append_of_pos fun x hx => by rw [taken x hx]; rfl,
      List.takeWhile_cons_of_neg (by simp [refused]), List.append_nil]
  rw [bindAll_eq level e h, start, first]

/-- Every entry is taken, or one is the first that is not. -/
theorem taken_or_stopped (e : Expression) (entries : List (Datum × Datum)) :
    (∀ entry ∈ entries, e.refusalOf? entry = none) ∨
      ∃ before entry later cause, entries = before ++ entry :: later ∧
        (∀ taken ∈ before, e.refusalOf? taken = none) ∧ e.refusalOf? entry = some cause := by
  cases first : entries.findSome? e.refusalOf? with
  | none => exact .inl (List.findSome?_eq_none_iff.mp first)
  | some cause =>
    obtain ⟨before, entry, later, split, refused, taken⟩ := List.findSome?_eq_some_iff.mp first
    exact .inr ⟨before, entry, later, cause, split, taken, refused⟩

theorem find?_bindEach (level : Log.Level) {e : Expression} {entries : List (Datum × Datum)}
    {key : Key}
    (other : ∀ entry ∈ entries, ∀ name, Name.ofDatum? entry.1 = .ok name → key ≠ name.key) :
    (e.bindEach level entries).bindings.find? key = e.bindings.find? key := by
  induction entries generalizing e with
  | nil => rfl
  | cons entry rest ih =>
    obtain ⟨first, later⟩ := List.forall_mem_cons.mp other
    rw [bindEach, List.foldl_cons]
    refine (ih later).trans ?_
    cases named : Name.ofDatum? entry.1 with
    | error cause =>
      simp only [step, Expression.named, named]
    | ok name =>
      cases refusal : e.refusalOf? entry with
      | some cause => rw [step_bind_refused level named refusal]
      | none =>
        obtain ⟨x, -, single⟩ := step_bind_taken level named refusal
        rw [single]
        exact Bindings.find?_set_other _ (first name named) x

theorem keeps_bindEach (level : Log.Level) (e : Expression) (entries : List (Datum × Datum)) :
    Keeps e (e.bindEach level entries) := by
  induction entries generalizing e with
  | nil => exact .refl e
  | cons entry rest ih => exact (keeps_step level e _).trans (ih _)

/-- A refused entry, tried after others, changes nothing. -/
theorem bindEach_concat_refused (level : Log.Level) {e : Expression}
    (before : List (Datum × Datum)) {entry : Datum × Datum} {cause : BindError} {name : Name}
    (named : Name.ofDatum? entry.1 = .ok name) (refused : e.refusalOf? entry = some cause) :
    e.bindEach level (before ++ [entry]) = e.bindEach level before := by
  have still : (e.bindEach level before).refusalOf? entry = some cause := by
    rw [refusalOf?_congr (keeps_bindEach level e before).userNames, refused]
  rw [bindEach, List.foldl_append]
  exact step_bind_refused level named still

/-- Names that differ have different keys wherever they come. -/
theorem Named.apart {entries : List (Datum × Datum)} {named : List (Name × Datum)}
    (h : Named entries named) (once : (named.map (·.1.key)).Nodup) :
    entries.Pairwise fun a b => ∀ m n, Name.ofDatum? a.1 = .ok m → Name.ofDatum? b.1 = .ok n →
      n.key ≠ m.key := by
  refine List.pairwise_iff_getElem.mpr fun i j hi hj less m n hm hn same => ?_
  obtain ⟨lengths, each⟩ := List.forall₂_iff_get.mp h
  have first : Name.ofDatum? entries[i].1 = .ok named[i].1 := (each i hi (lengths ▸ hi)).1
  have second : Name.ofDatum? entries[j].1 = .ok named[j].1 := (each j hj (lengths ▸ hj)).1
  cases hm.symm.trans first
  cases hn.symm.trans second
  have differ := List.pairwise_iff_getElem.mp once i j (by simpa [← lengths] using hi)
    (by simpa [← lengths] using hj) less
  rw [List.getElem_map, List.getElem_map] at differ
  exact differ same.symm

theorem step_bindAll (level : Log.Level) (e : Expression) {entries : List (Datum × Datum)}
    {names : List Name} (named : Name.ofData? (entries.map (·.1)) = .ok names)
    (once : (names.map Name.key).Nodup) :
    Named entries (names.zip (entries.map (·.2))) ∧
    ((names.zip (entries.map (·.2))).map (·.1.key)).Nodup ∧
    e.step level (.bindAll entries) = e.bindStep level (names.zip (entries.map (·.2))) := by
  obtain ⟨isNamed, firsts⟩ := named_of_ofData? named
  have keys : ((names.zip (entries.map (·.2))).map (·.1.key)).Nodup := by
    rw [← firsts, List.map_map] at once
    exact once
  refine ⟨isNamed, keys, ?_⟩
  simp only [step, named, Name.mapping_of_nodup keys]

/-- **A mapping is bound up to its first entry that is refused.** If none is, the bindings are those
of the entries one by one. Otherwise the error is that of the first one, and the bindings are those
of the entries before it, one by one: as when it was tried after them, and for its name and all
later ones as they were at first. Nothing but the bindings changes. -/
theorem bindAll_failFast (level : Log.Level) (e : Expression) {entries : List (Datum × Datum)}
    {names : List Name} (named : Name.ofData? (entries.map (·.1)) = .ok names)
    (once : (names.map Name.key).Nodup) :
    let after := (e.step level (.bindAll entries)).1
    let result := (e.step level (.bindAll entries)).2.result
    ((∀ entry ∈ entries, e.refusalOf? entry = none) →
      result = .ok .done ∧ after = e.bindEach level entries) ∧
    (∀ before entry later cause, entries = before ++ entry :: later →
      (∀ taken ∈ before, e.refusalOf? taken = none) → e.refusalOf? entry = some cause →
      result = .error (.bind cause) ∧ after = e.bindEach level before ∧
        after = e.bindEach level (before ++ [entry]) ∧
        ∀ late ∈ entry :: later, ∀ name, Name.ofDatum? late.1 = .ok name →
          after.bindings.find? name.key = e.bindings.find? name.key) ∧
    ((∀ entry ∈ entries, e.refusalOf? entry = none) ∨
      ∃ before entry later cause, entries = before ++ entry :: later ∧
        (∀ taken ∈ before, e.refusalOf? taken = none) ∧ e.refusalOf? entry = some cause) ∧
    after = { e with bindings := after.bindings } := by
  obtain ⟨isNamed, keys, asStep⟩ := step_bindAll level e named once
  rw [asStep]
  refine ⟨fun taken => ?_, fun before entry later cause split taken refused => ?_,
    e.taken_or_stopped entries, e.bindAll_eq_with _⟩
  · simp only [bindStep, bindAll_taken level isNamed taken, and_self]
  · obtain ⟨name, named⟩ := named_of_refusalOf? refused
    simp only [bindStep, bindAll_stopped level isNamed split taken refused, true_and]
    refine ⟨(bindEach_concat_refused level before named refused).symm, fun late hl n hn => ?_⟩
    have apart := isNamed.apart keys
    rw [split] at apart
    exact find?_bindEach level fun entry he m hm =>
      (List.pairwise_append.mp apart).2.2 entry he late hl m n hm hn

/-- A constant gets another value, a function is in the way, and a name would be new. -/
def mixed : List (Datum × Datum) :=
  [(.text "e", .real 1.0), (.text "cos", .null), (.text "x", .real 2.0)]

theorem bindAll_failFast_mixed :
    let after := (sample.step .silent (.bindAll mixed)).1
    Name.ofData? (mixed.map (·.1)) = .ok [.text "e", .text "cos", .text "x"] ∧
      (([.text "e", .text "cos", .text "x"] : List Name).map Name.key).Nodup ∧
      (sample.step .silent (.bindAll mixed)).2.result = .error (.bind (.reserved (.text "cos"))) ∧
      after = sample.bindEach .silent [(.text "e", .real 1.0)] ∧
      after.bindings.value? "e" = some 1.0 ∧ after.bindings.value? "x" = none := by
  have named : Name.ofData? (mixed.map (·.1)) = .ok [.text "e", .text "cos", .text "x"] := rfl
  have once : (([.text "e", .text "cos", .text "x"] : List Name).map Name.key).Nodup := by decide
  obtain ⟨-, stops, -, -⟩ := bindAll_failFast .silent sample named once
  obtain ⟨result, before, -, late⟩ := stops [(.text "e", .real 1.0)] _ _ _ rfl
    (List.forall_mem_singleton.mpr rfl) rfl
  refine ⟨named, once, result, before, by rw [before]; rfl, ?_⟩
  exact late (.text "x", .real 2.0) (by simp) (.text "x") rfl

end Expression
end ReversePolish

/-
What an expression remembers of its history. The sets of a step that succeed
are listed by `madeBy`; a step changes the bindings by just these, in order,
and by nothing else (`binds_step`). After any script the value of a name is
therefore the one that was last set with success, or that of its constant, and
the names are listed in the order in which they were first set
(`Workspace.here_recalls`).
-/
import ReversePolish.Proofs.Bindings
import ReversePolish.Proofs.Reachable
import ReversePolish.Proofs.Workspaces

namespace ReversePolish
namespace Expression

/-! ## The sets that succeed -/

/-- The values that are set when entries are bound in order, up to the first one that is
refused. -/
def madeAll (e : Expression) : List (Name × Datum) → List Binding
  | [] => []
  | (name, value) :: rest =>
    match e.bind name value, value.toFloat? with
    | .ok bound, .ok x => ⟨name, x⟩ :: bound.madeAll rest
    | _, _ => []

/-- The values that a sweep sets: up to the first that is refused, or for which the evaluation
fails. -/
def madeBySweep (level : Log.Level) (name : Name) : Expression → List Datum → List Binding
  | _, [] => []
  | e, value :: rest =>
    match e.bind name value, value.toFloat? with
    | .ok bound, .ok x =>
      ⟨name, x⟩ :: match bound.evaluate level with
        | (run, .ok _) => madeBySweep level name (bound.afterRun run) rest
        | (_, .error _) => []
    | _, _ => []

def madeBy (level : Log.Level) (e : Expression) : Step → List Binding
  | .bind given value => match Name.ofDatum? given with
    | .ok name => e.madeAll [(name, value)]
    | .error _ => []
  | .bindAll entries => match Name.ofData? (entries.map (·.1)) with
    | .ok names => e.madeAll (Name.mapping (names.zip (entries.map (·.2))))
    | .error _ => []
  | .sweep given values => match Name.ofDatum? given, values.items? with
    | .ok name, .ok values => e.madeBySweep level name values
    | _, _ => []
  | _ => []

/-- One expression comes of another by setting values in order, none under a reserved name. -/
structure Binds (e : Expression) (made : List Binding) (e' : Expression) : Prop where
  bindings : e'.bindings = e.bindings.setAll made
  userNames : e'.userNames = e.userNames
  allowed : ∀ b ∈ made, isReserved e.userNames b.name.key = false

theorem Binds.none {e e' : Expression} (bindings : e'.bindings = e.bindings)
    (userNames : e'.userNames = e.userNames) : Binds e [] e' := ⟨bindings, userNames, by simp⟩

theorem Binds.refl (e : Expression) : Binds e [] e := .none rfl rfl

theorem Binds.trans {e e' e'' : Expression} {made later : List Binding} (h : Binds e made e')
    (h' : Binds e' later e'') : Binds e (made ++ later) e'' where
  bindings := by rw [h'.bindings, h.bindings, Bindings.setAll_append]
  userNames := h'.userNames.trans h.userNames
  allowed := by
    refine List.forall_mem_append.mpr ⟨h.allowed, fun b hb => ?_⟩
    rw [← h.userNames]
    exact h'.allowed b hb

/-! ## The parts of a step -/

theorem bind_eq_ok {e bound : Expression} {name : Name} {value : Datum}
    (h : e.bind name value = .ok bound) :
    ∃ x, value.toFloat? = .ok x ∧ Binds e [⟨name, x⟩] bound := by
  unfold bind at h
  split at h
  · cases h
  next free =>
    split at h
    next x hx =>
      cases h
      exact ⟨x, hx, rfl, rfl, by simpa using free⟩
    · cases h

theorem binds_bindAll (e : Expression) (entries : List (Name × Datum)) :
    Binds e (e.madeAll entries) (e.bindAll entries).1 := by
  induction entries generalizing e with
  | nil => exact .refl e
  | cons entry rest ih =>
    obtain ⟨name, value⟩ := entry
    cases h : e.bind name value with
    | error cause =>
      simp only [madeAll, bindAll, h]
      exact .refl e
    | ok bound =>
      obtain ⟨x, hx, set⟩ := bind_eq_ok h
      simp only [madeAll, bindAll, h, hx]
      exact set.trans (ih bound)

theorem binds_afterRun (e : Expression) (r : Run) : Binds e [] (e.afterRun r) := .none rfl rfl

theorem binds_sweepStep (level : Log.Level) (name : Name) (values : List Datum) :
    ∀ (e : Expression) (found : List Float),
      Binds e (e.madeBySweep level name values) (sweepStep level name e found values).1 := by
  induction values with
  | nil => exact fun e found => .refl e
  | cons value rest ih =>
    intro e found
    cases h : e.bind name value with
    | error cause =>
      simp only [madeBySweep, sweepStep, bindStep, bindAll, h]
      exact .refl e
    | ok bound =>
      obtain ⟨x, hx, set⟩ := bind_eq_ok h
      simp only [madeBySweep, sweepStep, bindStep, bindAll, h, hx]
      cases hr : bound.evaluate level with
      | mk run outcome =>
      have ran : Binds e [⟨name, x⟩] (bound.afterRun run) := set.trans (binds_afterRun bound run)
      cases outcome with
      | error cause => exact ran
      | ok y => exact ran.trans (ih (bound.afterRun run) (y :: found))

theorem binds_named {e : Expression} {given : Datum} {go : Name → Expression × Report}
    {made : Name → List Binding} (h : ∀ name, Binds e (made name) (go name).1) :
    Binds e (match Name.ofDatum? given with
      | .ok name => made name
      | .error _ => []) (e.named given go).1 := by
  unfold named
  cases Name.ofDatum? given with
  | ok name => exact h name
  | error cause => exact .refl e

theorem binds_named_nil {e : Expression} {given : Datum} {go : Name → Expression × Report}
    (h : ∀ name, (go name).1 = e) : Binds e [] (e.named given go).1 := by
  unfold named
  split
  · rw [h]; exact .refl e
  · exact .refl e

/-- **A step sets what it makes, and leaves the bindings alone otherwise.** -/
theorem binds_step (level : Log.Level) (e : Expression) (s : Step) :
    Binds e (e.madeBy level s) (e.step level s).1 := by
  cases s with
  | evaluate => exact binds_afterRun e _
  | evaluateOn executor => exact binds_afterRun e _
  | bind given value => exact binds_named fun name => binds_bindAll e [(name, value)]
  | bindAll entries =>
    simp only [madeBy, step]
    cases Name.ofData? (entries.map (·.1)) with
    | ok names => exact binds_bindAll e _
    | error cause => exact .refl e
  | sweep given values =>
    simp only [madeBy, step, named]
    cases values.items? with
    | error cause =>
      cases Name.ofDatum? given <;> exact .refl e
    | ok items =>
      cases items with
      | nil => cases Name.ofDatum? given <;> exact .refl e
      | cons value rest =>
        cases Name.ofDatum? given with
        | error cause => exact .refl e
        | ok name => exact binds_sweepStep level name (value :: rest) e []
  | value given => exact binds_named_nil fun _ => rfl
  | cell given => exact binds_named_nil fun _ => rfl
  | render =>
    simp only [madeBy, step, render]
    split
    · exact .refl e
    · split
      · exact .none rfl rfl
      · exact .refl e
  | clearStats => exact .none rfl rfl
  | bindings | variableNames | userNames | validate | symbolic | freeSymbols | size | tokens
  | shown => exact .refl e

/-! ## The constants -/

/-- The constants that no function shadows, in the order of their table. -/
def constants (userNames : List Name) : List Binding :=
  (builtinConstants.filter fun c => !isReserved userNames (.text c.1)).map fun c => ⟨.text c.1, c.2⟩

theorem nodup_constants (userNames : List Name) :
    ((constants userNames).map (·.name.key)).Nodup := by
  have all : (builtinConstants.map fun c => Key.text c.1).Nodup := by decide
  have kept := (List.filter_sublist (p := fun c => !isReserved userNames (.text c.1))
    (l := builtinConstants)).map fun c => Key.text c.1
  simp only [constants, List.map_map]
  exact kept.nodup all

theorem initialBindings_eq (userNames : List Name) :
    initialBindings userNames = ⟨constants userNames⟩ := by
  rw [← Bindings.setAll_empty (nodup_constants userNames)]
  simp only [initialBindings, Bindings.setAll, constants, List.foldl_map, List.foldl_filter]
  congr 1
  funext b c
  cases isReserved userNames (.text c.1) <;> rfl

/-- What a name stands for after values were set: the last of them, or the constant. -/
def recalled? (userNames : List Name) (made : List Binding) (key : Key) : Option Float :=
  (Bindings.lastSet? made key).or (Bindings.find? ⟨constants userNames⟩ key)

/-- The names that are listed after values were set: the constants, and then the others in the
order in which they were first set. -/
def recalledNames (userNames : List Name) (made : List Binding) : List Name :=
  (constants userNames).map (·.name) ++
    (Name.distinct (made.map (·.name))).filter fun n =>
      !((constants userNames).map (·.name.key)).contains n.key

/-- An expression over given tokens and names of functions shows the values that were made, and no
others: to whoever asks for a value, in an evaluation, in a check and in the list of bindings. -/
structure Recalls (tokens : List Token) (userNames : List Name) (made : List Binding)
    (e : Expression) : Prop where
  value : ∀ level given, e.step level (.value given) = e.named given fun name =>
    (e, .pure (match recalled? userNames made name.key with
      | some x => .ok (.number x)
      | none => .error (.noValue name)))
  evaluate : ∀ level, e.evaluate level = ReversePolish.evaluate level
    (fun n => recalled? userNames made (.text n)) tokens e.stack e.pool
  validate : ∀ checked, e.validate checked = ReversePolish.validate tokens
    (fun n => (recalled? userNames made (.text n)).isSome)
    (checked.getD e.config.checkVariablesOnValidate)
  names : e.bindings.names = recalledNames userNames made
  once : (e.bindings.names.map Name.key).Nodup
  entries : ∀ entry ∈ e.bindings.entries,
    recalled? userNames made entry.name.key = some entry.value

theorem Recalls.of_binds {tokens : List Token} {userNames : List Name} {config : Config}
    {made : List Binding} {e : Expression} (same : e.tokens = tokens)
    (h : Binds (ofTokens tokens userNames config) made e) :
    Recalls tokens userNames made e := by
  have bindings : e.bindings = Bindings.setAll ⟨constants userNames⟩ made := by
    rw [h.bindings, ofTokens, initialBindings_eq]
  have find (key : Key) : e.bindings.find? key = recalled? userNames made key := by
    rw [bindings, Bindings.find?_setAll, recalled?]
  have once : (e.bindings.names.map Name.key).Nodup := by
    rw [bindings]
    refine Bindings.nodup_setAll ?_ made
    rw [Bindings.names, List.map_map]
    exact nodup_constants userNames
  constructor
  · intro level given
    refine congrArg (e.named given) (funext fun name => ?_)
    change (e, Report.pure (match e.bindings.find? name.key with
      | some x => .ok (.number x)
      | none => .error (.noValue name))) = _
    rw [find]
  · intro level
    have values : e.bindings.value? = fun n => recalled? userNames made (.text n) :=
      funext fun n => find (.text n)
    rw [Expression.evaluate, values, same]
  · intro checked
    simp only [Expression.validate, Bindings.contains, find, same]
  · rw [bindings, Bindings.names_setAll, recalledNames]
    congr 2
    funext n
    rw [Bool.eq_iff_iff]
    simp [Bindings.contains_iff, Bindings.names, ← Bool.not_eq_true]
  · exact once
  · intro entry hm
    rw [← find, Bindings.find?_of_mem once hm]

end Expression

/-! ## Scripts -/

namespace Workspace

def Step.stays : Step → Bool
  | .use _ => false
  | _ => true

def madeBy (level : Log.Level) : Workspace → List Step → List Binding
  | _, [] => []
  | w, s :: rest =>
    (match s with
      | .on s => w.here.madeBy level s
      | _ => []) ++ madeBy level (w.step level s).1 rest

theorem here_copy (level : Log.Level) (w : Workspace) (name : Datum) :
    (w.step level (.copy name)).1.here = w.here := by
  simp only [step]
  split <;> rfl

/-- **A script sets the values that its steps make**, and leaves the tokens as they were. -/
theorem binds_after (level : Log.Level) {script : List Step} (stays : ∀ s ∈ script, s.stays = true)
    (w : Workspace) :
    w.here.Binds (w.madeBy level script) (w.after level script).here ∧
      (w.after level script).here.tokens = w.here.tokens := by
  induction script generalizing w with
  | nil => exact ⟨.refl w.here, rfl⟩
  | cons s rest ih =>
    obtain ⟨first, later⟩ := List.forall_mem_cons.mp stays
    obtain ⟨binds, tokens⟩ := ih later (w.step level s).1
    rw [after_cons]
    cases s with
    | on s =>
      exact ⟨(w.here.binds_step level s).trans binds,
        tokens.trans (Expression.keeps_step level w.here s).tokens⟩
    | copy name =>
      rw [here_copy] at binds tokens
      exact ⟨binds, tokens⟩
    | use name => cases first

/-- **The last successful set of a name wins.** After a script on a new expression every value
that is asked for, evaluated with or checked is the last one that was set with success under the
name, or else that of the constant; the constants are listed in the order of their table, and then
the other names in the order in which they were first set, each once. No later step moves a name
in that list. -/
theorem here_recalls (level : Log.Level) (tokens : List Token) (userNames : List Name)
    (config : Config) (place : String) {script : List Step}
    (stays : ∀ s ∈ script, s.stays = true) :
    let w := start place (.ofTokens tokens userNames config)
    ((w.after level script).here.Recalls tokens userNames (w.madeBy level script)) ∧
      ∀ earlier later, script = earlier ++ later →
        (w.after level earlier).here.bindings.names <+:
          (w.after level script).here.bindings.names := by
  intro w
  obtain ⟨binds, same⟩ := binds_after level stays w
  refine ⟨.of_binds same binds, ?_⟩
  rintro earlier later rfl
  have goesOn : ∀ s ∈ later, s.stays = true := fun s hs => stays s (List.mem_append_right _ hs)
  rw [after_append, (binds_after level goesOn _).1.bindings, Bindings.names_setAll]
  exact List.prefix_append ..

/-- Names that are set, a mapping that is refused half-way, a copy, a value that is no number, a
name that is set again by a sweep, and a constant that gets another value. -/
def restless : List Step :=
  [.on (.bind (.text "x") (.real 2.0)),
    .on (.bindAll [(.text "y", .real 3.0), (.text "sin", .real 1.0), (.text "z", .real 4.0)]),
    .copy (.text "copy"), .on (.bind (.text "pi") .null),
    .on (.sweep (.text "x") (.list [.real 5.0, .null])), .on (.bind (.text "e") (.real 6.0))]

theorem here_recalls_restless :
    let w := start "main" (.ofTokens [.name "x", .name "y"] [] {})
    (∀ s ∈ restless, s.stays = true) ∧
      w.madeBy .silent restless = [⟨.text "x", 2.0⟩, ⟨.text "y", 3.0⟩, ⟨.text "x", 5.0⟩,
        ⟨.text "e", 6.0⟩] ∧
      (w.after .silent restless).here.bindings.names =
        [.text "pi", .text "π", .text "e", .text "φ", .text "x", .text "y"] := by
  have stays : ∀ s ∈ restless, s.stays = true := by decide
  have recalls := (here_recalls .silent [.name "x", .name "y"] [] {} "main" stays).1
  exact ⟨stays, rfl, recalls.names⟩

end Workspace
end ReversePolish

/-
Reserved names. The names of functions, built in or the caller's, are never
bound: a new expression leaves out the constants that they shadow, every set
is refused for them, and a copy has the bindings of its source. So a sequence
with a variable of such a name is never evaluated to a value and never passes
a check of its variables (`Workspace.reserved_unbound`).
-/
import ReversePolish.Proofs.Acceptance
import ReversePolish.Proofs.History

namespace ReversePolish
namespace Expression

/-- The keys of the names that are reserved: those of the built-in functions and those of the
caller's. -/
def reservedKeys (userNames : List Name) : List Key :=
  BuiltinFunction.names.map Key.text ++ userNames.map Name.key

theorem isReserved_eq_false_iff {userNames : List Name} {key : Key} :
    isReserved userNames key = false ↔ key ∉ reservedKeys userNames := by
  rw [← Bool.not_eq_true, isReserved, reservedKeys, Bool.or_eq_true, List.mem_append]
  simp only [List.contains_iff_mem]

/-- An expression over given tokens and names of functions that binds none of the names. -/
structure Unreserved (ts : List Token) (functions : List Name) (e : Expression) : Prop where
  tokens : e.tokens = ts
  userNames : e.userNames = functions
  names : ∀ n ∈ e.bindings.names, n.key ∉ reservedKeys functions

namespace Unreserved

variable {tokens : List Token} {userNames : List Name}

theorem ofTokens (config : Config) :
    Unreserved tokens userNames (.ofTokens tokens userNames config) where
  tokens := rfl
  userNames := rfl
  names := by
    intro n hn
    simp only [Expression.ofTokens, initialBindings_eq, Bindings.names, constants, List.map_map,
      List.mem_map, List.mem_filter] at hn
    obtain ⟨c, ⟨-, free⟩, rfl⟩ := hn
    exact isReserved_eq_false_iff.mp (by simpa using free)

theorem step {e : Expression} (h : Unreserved tokens userNames e) (level : Log.Level) (s : Step) :
    Unreserved tokens userNames (e.step level s).1 where
  tokens := (keeps_step level e s).tokens.trans h.tokens
  userNames := (keeps_step level e s).userNames.trans h.userNames
  names := by
    intro n hn
    have set := binds_step level e s
    rw [set.bindings] at hn
    rcases Bindings.mem_names_setAll hn with old | ⟨b, hb, rfl⟩
    · exact h.names n old
    · rw [← h.userNames]
      exact isReserved_eq_false_iff.mp (set.allowed b hb)

theorem copy {e : Expression} (h : Unreserved tokens userNames e) :
    Unreserved tokens userNames e.copy := ⟨h.tokens, h.userNames, h.names⟩

theorem not_allBound {e : Expression} (h : Unreserved tokens userNames e) {v : String}
    (hv : .name v ∈ tokens) (reserved : Key.text v ∈ reservedKeys userNames) : ¬ e.AllBound := by
  intro bound
  obtain ⟨x, hx⟩ := bound v (h.tokens ▸ hv)
  have found : e.bindings.contains (.text v) = true := by
    rw [Bindings.contains, ← Bindings.value?, hx]
    rfl
  obtain ⟨n, hn, key⟩ := List.mem_map.mp (Bindings.contains_iff.mp found)
  exact h.names n hn (key ▸ reserved)

end Unreserved

theorem allBound_of_valid {e : Expression} (h : (e.validate (some true)).valid = true) :
    e.AllBound := by
  rw [validate_valid_iff] at h
  exact h.1 rfl

end Expression

namespace Workspace

/-- **Reserved names are never bound.** Whatever the tokens, the names of functions and the
settings, after any script no expression and no copy binds a name of a function. So if a variable
of the sequence has such a name, no evaluation gives a value and no check of the variables is
passed. -/
theorem reserved_unbound (level : Log.Level) (tokens : List Token) (userNames : List Name)
    (config : Config) (place : String) (script : List Step) {e : Expression}
    (h : e ∈ ((start place (.ofTokens tokens userNames config)).after level script).expressions) :
    (∀ n ∈ e.bindings.names, n.key ∉ Expression.reservedKeys userNames) ∧
      ∀ v, .name v ∈ tokens → Key.text v ∈ Expression.reservedKeys userNames →
        (∀ level' x, (e.evaluate level').2 ≠ .ok x) ∧ (e.validate (some true)).valid = false := by
  have unreserved : e.Unreserved tokens userNames := by
    refine forall_after (fun level e s he => he.step level s) (fun e he => he.copy) ?_ level script
      e h
    exact List.forall_mem_singleton.mpr (.ofTokens config)
  refine ⟨unreserved.names, fun v hv reserved => ?_⟩
  have unbound := unreserved.not_allBound hv reserved
  constructor
  · exact fun level' x hx => unbound (Expression.allBound_of_evaluate hx)
  · rw [← Bool.not_eq_true]
    exact fun valid => unbound (Expression.allBound_of_valid valid)

/-- A caller's function is called like a constant; its name and that of a built-in function are
tried, on a copy too. -/
def trespass : List Step :=
  [.on (.bind (.text "e") (.real 1.0)), .copy (.text "copy"), .use (.text "copy"),
    .on (.bindAll [(.text "x", .real 2.0), (.text "sin", .real 3.0)]), .on .evaluate]

theorem reserved_unbound_trespass :
    ∃ e, e ∈ ((start "main" (.ofTokens [.name "e"] [.text "e"] {})).after .silent
        trespass).expressions ∧
      e.bindings.names = [.text "pi", .text "π", .text "φ", .text "x"] ∧
      Key.text "e" ∈ Expression.reservedKeys [.text "e"] ∧
      (∀ n ∈ e.bindings.names, n.key ∉ Expression.reservedKeys [.text "e"]) ∧
      (e.validate (some true)).valid = false := by
  have here := List.mem_cons_self (a := ((start "main" (.ofTokens [.name "e"] [.text "e"] {})).after
    .silent trespass).here) (l := ((start "main" (.ofTokens [.name "e"] [.text "e"] {})).after
    .silent trespass).others.map (·.2))
  have reserved : Key.text "e" ∈ Expression.reservedKeys [.text "e"] := by decide
  obtain ⟨names, never⟩ :=
    reserved_unbound .silent [.name "e"] [.text "e"] {} "main" trespass here
  exact ⟨_, here, rfl, reserved, names, (never "e" (List.mem_singleton_self _) reserved).2⟩

end Workspace
end ReversePolish

/-
What a check can say. First come the variables that are not bound, if they are
looked at, and then what the scan found: nothing, or that too many values are
left, or where it stopped (`found_structural`). It stops at the first token
after which there is less than one value, and says there that there are too
many operators; if that token is a function which misses arguments, that is
said just before. A function that misses arguments is always one at which the
scan stops (`structural_pass`), so nothing ever follows the two.
-/
import Mathlib.Data.List.Basic
import Mathlib.Data.List.Induction
import ReversePolish.Proofs.Diagnosis

namespace ReversePolish
namespace Validation

/-! ## Where the scan stops -/

def balance (tokens : List Token) : Int := tokens.foldl balanceAfter 0

def RunsThrough (tokens : List Token) : Prop :=
  ∀ before t, before ++ [t] <+: tokens → 1 ≤ balance (before ++ [t])

/-- The token after which none is left, for the first time. -/
structure StopsAt (before : List Token) (t : Token) : Prop where
  through : RunsThrough before
  none : balance (before ++ [t]) < 1

/-- How the scan of a sequence ends, with the texts that it then has. -/
inductive Found (tokens : List Token) : List String → Prop
  | clear (through : RunsThrough tokens) (left : balance tokens ≤ 1) : Found tokens []
  | operands (through : RunsThrough tokens) (left : 1 < balance tokens) :
    Found tokens ["Too many operands"]
  | operators {before : List Token} {t : Token} {after : List Token}
    (split : tokens = before ++ t :: after) (stops : StopsAt before t)
    (enough : ∀ f, t = .operation (.function f) → f.arguments.toNat ≤ balance before) :
    Found tokens ["Too many operators"]
  | arguments {before : List Token} {f : Function} {after : List Token}
    (split : tokens = before ++ .operation (.function f) :: after)
    (stops : StopsAt before (.operation (.function f)))
    (missing : balance before < f.arguments.toNat) :
    Found tokens ["Not enough arguments for '" ++ f.name ++ "'", "Too many operators"]

theorem balance_concat (before : List Token) (t : Token) :
    balance (before ++ [t]) = balanceAfter (balance before) t := by simp [balance]

theorem runsThrough_concat {before : List Token} {t : Token} :
    RunsThrough (before ++ [t]) ↔ RunsThrough before ∧ 1 ≤ balance (before ++ [t]) := by
  constructor
  · intro h
    exact ⟨fun first u hp => h first u (hp.trans (List.prefix_append ..)),
      h before t (List.prefix_refl _)⟩
  · rintro ⟨through, left⟩ first u hp
    rcases List.prefix_concat_iff.mp hp with whole | hp
    · exact whole ▸ left
    · exact through first u hp

theorem runsThrough_or_stopsAt (tokens : List Token) :
    RunsThrough tokens ∨ ∃ before t after, tokens = before ++ t :: after ∧ StopsAt before t := by
  induction tokens using List.reverseRecOn with
  | nil => exact .inl fun before t h => by simp at h
  | append_singleton tokens u ih =>
    rcases ih with through | ⟨before, t, after, rfl, stops⟩
    · by_cases left : 1 ≤ balance (tokens ++ [u])
      · exact .inl (runsThrough_concat.mpr ⟨through, left⟩)
      · exact .inr ⟨tokens, u, [], rfl, through, Int.not_le.mp left⟩
    · exact .inr ⟨before, t, after ++ [u], by simp, stops⟩

theorem structural_append {before : List Token} (through : RunsThrough before)
    (after : List Token) :
    structural 0 (before ++ after) = structural (balance before) after := by
  induction before using List.reverseRecOn generalizing after with
  | nil => rfl
  | append_singleton before t ih =>
    obtain ⟨through, left⟩ := runsThrough_concat.mp through
    rw [balance_concat] at left ⊢
    calc structural 0 (before ++ [t] ++ after) = structural 0 (before ++ t :: after) := by simp
      _ = structural (balance before) (t :: after) := ih through (t :: after)
      _ = structural (balanceAfter (balance before) t) after := structural_pass after left

/-- **Where the scan stops it has found all that it finds**, whatever follows. -/
theorem structural_of_stopsAt {before : List Token} {t : Token} (stops : StopsAt before t)
    (after : List Token) :
    structural 0 (before ++ t :: after) = shortage (balance before) t ++ [.tooManyOperators] := by
  rw [structural_append stops.through, structural_stop after (balance_concat before t ▸ stops.none)]

/-- **The scan has one of four findings**, by how it ends. -/
theorem found_structural (tokens : List Token) :
    Found tokens ((structural 0 tokens).map Fault.message) := by
  rcases runsThrough_or_stopsAt tokens with through | ⟨before, t, after, rfl, stops⟩
  · have scanned : structural 0 tokens = structural (balance tokens) [] := by
      simpa using structural_append through []
    rw [scanned, structural]
    split
    next left => exact .operands through left
    next left => exact .clear through (Int.not_lt.mp left)
  · rw [structural_of_stopsAt stops]
    unfold shortage
    split
    next f =>
      split
      next missing => exact .arguments rfl stops missing
      next enough =>
        refine .operators rfl stops fun g hg => ?_
        cases hg
        exact Int.not_lt.mp enough
    next other => exact .operators rfl stops fun f hf => absurd hf (other f)

/-! ## The faults of a check -/

def unboundNames (isBound : String → Bool) (tokens : List Token) : List String :=
  (tokens.filterMap Token.variableName?).filter fun n => !isBound n

theorem unbound_eq (isBound : String → Bool) (tokens : List Token) :
    unbound isBound tokens = (unboundNames isBound tokens).map .unbound := by
  induction tokens with
  | nil => rfl
  | cons t rest ih =>
    cases t with
    | number x => exact ih
    | operation op => exact ih
    | name n =>
      cases bound : isBound n with
      | true => simpa [unbound, unboundNames, Token.variableName?, bound] using ih
      | false => simpa [unbound, unboundNames, Token.variableName?, bound] using ih

theorem faults_validate (tokens : List Token) (isBound : String → Bool) (checked : Bool) :
    (validate tokens isBound checked).faults =
      (if checked then unboundNames isBound tokens else []).map .unbound ++
        structural 0 tokens := by
  rw [validate, faults_ofFaults]
  cases checked with
  | true => exact congrArg (· ++ _) (unbound_eq isBound tokens)
  | false => rfl

theorem faults_split {v : Validation} {names : List String} {scanned : List Fault} {f : Fault}
    {before after : List String} (faults : v.faults = names.map Fault.unbound ++ scanned)
    (scans : ∀ n, f ≠ .unbound n) (h : v.errors = before ++ f.message :: after) :
    ∃ first rest, scanned = first ++ f :: rest ∧ rest.map Fault.message = after ∧
      before = (names.map Fault.unbound ++ first).map Fault.message := by
  obtain ⟨found, tail, split, rfl, htail⟩ := List.map_eq_append_iff.mp h
  obtain ⟨g, rest, rfl, same, rfl⟩ := List.map_eq_cons_iff.mp htail
  obtain rfl : g = f := Fault.eq_of_message_eq same
  rw [faults] at split
  rcases List.append_eq_append_iff.mp split with ⟨first, rfl, hs⟩ | ⟨more, hn, hs⟩
  · exact ⟨first, rest, hs, rfl, rfl⟩
  · cases more with
    | nil => exact ⟨[], rest, hs.symm, rfl, by rw [hn]; simp⟩
    | cons u more =>
      -- Then the occurrence would be among the variables.
      cases hs
      have named : g ∈ names.map Fault.unbound := by simp [hn]
      obtain ⟨n, -, rfl⟩ := List.mem_map.mp named
      exact absurd rfl (scans n)

theorem mem_texts {f : Fault} {faults : List Fault} :
    f.message ∈ faults.map Fault.message ↔ f ∈ faults :=
  List.mem_map_of_injective fun _ _ => Fault.eq_of_message_eq

/-- Where a fault stands among those of the scan: too many operands alone, too many operators
last, and missing arguments just before that. -/
theorem structural_occurrence {tokens : List Token} {first rest : List Fault} {f : Fault}
    (h : structural 0 tokens = first ++ f :: rest) :
    (f = .tooManyOperands ∧ first = [] ∧ rest = []) ∨
      (f = .tooManyOperators ∧ .tooManyOperands ∉ first ∧ rest = []) ∨
      ∃ n, f = .tooFewArguments n ∧ first = [] ∧ rest = [.tooManyOperators] := by
  rcases structural_shape 0 tokens with hs | hs | hs | ⟨n, hs⟩
  all_goals rw [Int.ofNat_zero, h] at hs
  · simp at hs
  · rcases List.append_eq_singleton_iff.mp hs with ⟨rfl, same⟩ | ⟨-, none⟩
    · cases same; exact .inl ⟨rfl, rfl, rfl⟩
    · cases none
  · rcases List.append_eq_singleton_iff.mp hs with ⟨rfl, same⟩ | ⟨-, none⟩
    · cases same; exact .inr (.inl ⟨rfl, List.not_mem_nil, rfl⟩)
    · cases none
  · cases first with
    | nil => cases hs; exact .inr (.inr ⟨n, rfl, rfl, rfl⟩)
    | cons g first =>
      obtain ⟨rfl, later⟩ := List.cons.inj hs
      rcases List.append_eq_singleton_iff.mp later with ⟨rfl, same⟩ | ⟨-, none⟩
      · cases same; exact .inr (.inl ⟨rfl, by simp, rfl⟩)
      · cases none

/-- The shape of what a check says. -/
structure HasShape (tokens : List Token) (isBound : String → Bool) (checked : Bool)
    (v : Validation) : Prop where
  /-- The variables come first, if they are looked at, and then what the scan found. -/
  errors : ∃ found, Found tokens found ∧
    v.errors = (if checked then unboundNames isBound tokens else []).map
      (fun n => "The variable '" ++ n ++ "' has not been set") ++ found
  /-- Missing arguments are said to be missing once, just before the end. -/
  arguments : ∀ before n after,
    v.errors = before ++ ("Not enough arguments for '" ++ n ++ "'") :: after →
      after = ["Too many operators"] ∧ ∀ m, "Not enough arguments for '" ++ m ++ "'" ∉ before
  /-- Nothing follows too many operators, and too many operands are not said to be there as well. -/
  operators : ∀ before after, v.errors = before ++ "Too many operators" :: after →
    after = [] ∧ "Too many operands" ∉ before
  /-- The tokens after the one at which the scan stops make no difference to what it finds. -/
  rest : ∀ before t after, tokens = before ++ t :: after → StopsAt before t → ∀ later,
    (validate (before ++ t :: later) isBound false).errors = (validate tokens isBound false).errors
  valid : v.valid = true ↔ v.errors = []
  shared : v.errors = [] ↔ v = success

/-- **What a check says always has this shape**, for all tokens, whatever is bound. -/
theorem hasShape_validate (tokens : List Token) (isBound : String → Bool) (checked : Bool) :
    HasShape tokens isBound checked (validate tokens isBound checked) where
  errors := by
    refine ⟨_, found_structural tokens, ?_⟩
    rw [errors, faults_validate, List.map_append, List.map_map]
    rfl
  arguments before n after h := by
    obtain ⟨first, rest, scanned, rfl, rfl⟩ :=
      faults_split (f := .tooFewArguments n) (faults_validate ..) (fun _ => nofun) h
    rcases structural_occurrence scanned with ⟨⟨⟩, -⟩ | ⟨⟨⟩, -⟩ | ⟨-, -, rfl, rfl⟩
    refine ⟨rfl, fun m hm => ?_⟩
    have named := mem_texts (f := .tooFewArguments m).mp hm
    simp at named
  operators before after h := by
    obtain ⟨first, rest, scanned, rfl, rfl⟩ :=
      faults_split (f := .tooManyOperators) (faults_validate ..) (fun _ => nofun) h
    rcases structural_occurrence scanned with ⟨⟨⟩, -⟩ | ⟨-, apart, rfl⟩ | ⟨_, ⟨⟩, -⟩
    refine ⟨rfl, fun hm => ?_⟩
    have named := mem_texts (f := .tooManyOperands).mp hm
    simp [apart] at named
  rest before t after split stops later := by
    simp [split, errors, validate, structural_of_stopsAt stops]
  valid := by simp [errors, validate]
  shared := by
    rw [errors, List.map_eq_nil_iff, validate, faults_ofFaults]
    constructor
    · intro none
      rw [none]
      rfl
    · intro shared
      have none := congrArg Validation.faults shared
      rwa [faults_ofFaults] at none

/-- A function of three arguments that finds two, between two occurrences of a variable. -/
def meagre : List Token := [.name "y", .number 2.0, .operation Expression.blend, .name "y"]

theorem stopsAt_blend : StopsAt [.name "y", .number 2.0] (.operation Expression.blend) where
  through := by
    have one : RunsThrough ([] ++ [.name "y"]) :=
      runsThrough_concat.mpr ⟨fun before t h => by simp at h, by decide⟩
    exact runsThrough_concat.mpr ⟨one, by decide⟩
  none := by decide

theorem hasShape_validate_meagre :
    (validate meagre (fun _ => false) true).errors =
        ["The variable 'y' has not been set", "The variable 'y' has not been set",
          "Not enough arguments for 'blend'", "Too many operators"] ∧
      ∀ later, (validate ([.name "y", .number 2.0] ++ .operation Expression.blend :: later)
        (fun _ => false) false).errors =
          ["Not enough arguments for 'blend'", "Too many operators"] := by
  have shape := hasShape_validate meagre (fun _ => false) true
  exact ⟨rfl, fun later => shape.rest _ _ _ rfl stopsAt_blend later⟩

end Validation
end ReversePolish

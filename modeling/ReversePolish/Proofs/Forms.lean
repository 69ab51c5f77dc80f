/-
The two forms in which a double comes to a kernel. An evaluation works from
buffers, so that it gives every kernel cells; a plain reading hands everything
on in the form it has. Both come to the same doubles where each operation that
the plain reading comes to gives for its arguments what it gives for cells
(`valuation_fold_eq`). A built-in operation always does; of a caller's own it
is not known, and must be assumed where it is needed.
-/
import ReversePolish.Proofs.Reading

namespace ReversePolish

/-- A kernel that gives for its arguments, whatever their forms, what it gives for cells. -/
def Kernel.Blind (k : Kernel) : Prop :=
  ∀ args, (k args).map Scalar.value = (k (args.map fun x => ⟨x.value, .cell⟩)).map Scalar.value

namespace Kernel

theorem blind_unary (signature : Signature) (form : Form) (f : Float → Float) :
    (unary signature form f).Blind := by
  intro args
  rcases args with _ | ⟨x, _ | ⟨y, rest⟩⟩
  · rfl
  · rfl
  · simp [unary, Except.map]

theorem blind_binary (signature : Signature) (form : Form) (f : Float → Float → Float) :
    (binary signature form f).Blind := by
  intro args
  rcases args with _ | ⟨x, _ | ⟨y, _ | ⟨z, rest⟩⟩⟩
  · rfl
  · rfl
  · rfl
  · simp [binary, Except.map]

theorem blind_constant (value : Float) : (constant value).Blind := fun _ => rfl

/-- A fold over arguments in their places gives one double for all forms, if its steps do. -/
theorem value_foldl_zipIdx {f : Scalar → Scalar × Nat → Scalar}
    (step : ∀ {t t'} x i, t.value = t'.value →
      (f t (x, i)).value = (f t' (⟨x.value, .cell⟩, i)).value)
    (xs : List Scalar) : ∀ {t t' : Scalar} (k : Nat), t.value = t'.value →
      ((xs.zipIdx k).foldl f t).value =
        (((xs.map fun x => ⟨x.value, .cell⟩).zipIdx k).foldl f t').value := by
  induction xs with
  | nil => exact fun _ h => h
  | cons x xs ih => exact fun k h => ih (k + 1) (step x k h)

theorem blind_weightedSum : weightedSum.Blind := fun args =>
  congrArg Except.ok (value_foldl_zipIdx
    (fun x i h => congrArg (fun total => total + i.toFloat * x.value) h) args 1 rfl)

end Kernel

namespace Operation

def Blind (op : Operation) : Prop := ∀ k, op.kernel? = some k → k.Blind

theorem blind_of_builtin {op : Operation} (builtin : op.isDefined = false) : op.Blind := by
  intro k hk
  cases op with
  | operator o =>
    cases o with
    | defined d => cases builtin
    | builtin o =>
      cases hk
      cases o
      case negate | plus => exact Kernel.blind_unary _ _ _
      all_goals exact Kernel.blind_binary _ _ _
  | function f =>
    cases f with
    | defined d => cases builtin
    | builtin f =>
      cases hk
      cases f
      case logb | pow => exact Kernel.blind_binary _ _ _
      all_goals exact Kernel.blind_unary _ _ _

/-- For these arguments the operation gives the double that it gives for cells, or fails as it
does on cells. -/
def TreatsAlike (op : Operation) (args : List Scalar) : Prop :=
  (op.applyTo args).map Scalar.value = op.apply (args.map Scalar.value)

theorem Blind.treatsAlike {op : Operation} (blind : op.Blind) (args : List Scalar) :
    op.TreatsAlike args := by
  unfold TreatsAlike apply applyTo
  cases hk : op.kernel? with
  | none => rfl
  | some k => simp [blind k hk args, Function.comp_def]

end Operation

/-- What tokens mean by cells is the double of what they mean in the forms they have. -/
theorem valuation_leavesMap (value? : String → Option Float) :
    Interpretation.LeavesMap Scalar.value (Scalar.valuation value?) (valuation value?) := by
  refine ⟨fun _ => rfl, fun n => ?_⟩
  simp only [Scalar.valuation, valuation]
  cases value? n <;> rfl

theorem valuation_apply_eq {value? : String → Option Float} {op : Operation} {args : List Scalar}
    (alike : op.TreatsAlike args) :
    ((Scalar.valuation value?).apply op args).map Scalar.value =
      (valuation value?).apply op (args.map Scalar.value) := by
  simp only [Scalar.valuation, valuation, ← show _ = op.apply _ from alike]
  cases op.applyTo args <;> rfl

/-- **The two readings agree** where every operation that is come to treats both forms alike. -/
theorem valuation_fold_eq {value? : String → Option Float} {ts : List Token}
    (alike : ∀ a ∈ (Scalar.valuation value?).applications [] ts, a.1.TreatsAlike a.2) :
    (valuation value?).fold ts = ((Scalar.valuation value?).fold ts).map Scalar.value :=
  (valuation_leavesMap value?).fold_eq fun a ha => valuation_apply_eq (alike a ha)

end ReversePolish

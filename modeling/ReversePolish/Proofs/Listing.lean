/-
Trees and their listings. Reading the listing of a tree, on top of any values,
adds the meaning of the tree and makes the applications of the tree, each
once and the arguments' before the operation's own (`read_postorder`). An
evaluation of the listing therefore computes the meaning of the tree.
-/
import Mathlib.Data.List.Forall2
import ReversePolish.Proofs.Depth
import ReversePolish.Proofs.Outcome

namespace ReversePolish
namespace Tree

variable {α : Type u}

mutual

/-- The applications in a tree, in postfix order: for each operation the meanings of its
arguments. -/
def applications (I : Interpretation α) : Tree → List (Operation × List α)
  | .number _ => []
  | .name _ => []
  | .node op args => applicationsAll I args ++ match valueAll I args with
    | .ok values => [(op, values)]
    | .error _ => []

def applicationsAll (I : Interpretation α) : List Tree → List (Operation × List α)
  | [] => []
  | t :: rest => t.applications I ++ applicationsAll I rest

end

/-! ## Induction over trees -/

mutual

/-- What holds of the leaves, and of every node of which it holds of the arguments, holds of all
trees. -/
theorem inductionOn {P : Tree → Prop} (number : ∀ x, P (.number x)) (name : ∀ n, P (.name n))
    (node : ∀ op args, (∀ a ∈ args, P a) → P (.node op args)) : ∀ t, P t
  | .number x => number x
  | .name n => name n
  | .node op args => node op args (inductionOnAll number name node args)

theorem inductionOnAll {P : Tree → Prop} (number : ∀ x, P (.number x)) (name : ∀ n, P (.name n))
    (node : ∀ op args, (∀ a ∈ args, P a) → P (.node op args)) : ∀ ts : List Tree, ∀ t ∈ ts, P t
  | [] => fun _ h => by cases h
  | t :: rest => List.forall_mem_cons.mpr
    ⟨inductionOn number name node t, inductionOnAll number name node rest⟩

end

theorem allWellFormed_iff {ts : List Tree} : AllWellFormed ts ↔ ∀ t ∈ ts, t.WellFormed := by
  induction ts with
  | nil => simp [AllWellFormed]
  | cons t ts ih => simp [AllWellFormed, ih]

theorem mem_postorderAll {ts : List Tree} {u : Token} :
    u ∈ postorderAll ts ↔ ∃ t ∈ ts, u ∈ t.postorder := by
  induction ts with
  | nil => simp [postorderAll]
  | cons t ts ih => simp [postorderAll, ih]

theorem mem_postorder_of_mem {op : Operation} {args : List Tree} {t : Tree} (ht : t ∈ args)
    {u : Token} (hu : u ∈ t.postorder) : u ∈ (node op args).postorder :=
  List.mem_append_left _ (mem_postorderAll.mpr ⟨t, ht, hu⟩)

theorem operation_mem_postorder (op : Operation) (args : List Tree) :
    .operation op ∈ (node op args).postorder :=
  List.mem_append_right _ (List.mem_singleton_self _)

theorem mem_applicationsAll {I : Interpretation α} {ts : List Tree} {a : Operation × List α} :
    a ∈ applicationsAll I ts ↔ ∃ t ∈ ts, a ∈ t.applications I := by
  induction ts with
  | nil => simp [applicationsAll]
  | cons t ts ih => simp [applicationsAll, ih]

/-! ## Meanings of trees and of lists of trees -/

theorem forall₂_of_valueAll {I : Interpretation α} {ts : List Tree} {values : List α}
    (h : valueAll I ts = .ok values) : List.Forall₂ (fun t v => t.value I = .ok v) ts values := by
  induction ts generalizing values with
  | nil =>
    cases h
    exact .nil
  | cons t rest ih =>
    simp only [valueAll] at h
    cases ht : t.value I with
    | error e => rw [ht] at h; cases h
    | ok v =>
      cases hr : valueAll I rest with
      | error e => rw [ht, hr] at h; cases h
      | ok vs =>
        rw [ht, hr] at h
        cases h
        exact .cons ht (ih hr)

theorem length_valueAll {I : Interpretation α} {ts : List Tree} {values : List α}
    (h : valueAll I ts = .ok values) : values.length = ts.length :=
  (forall₂_of_valueAll h).length_eq.symm

mutual

/-- A tree has a meaning where every name and every application has one. -/
theorem value_ok {I : Interpretation α} :
    ∀ (t : Tree), t.WellFormed → I.TotalOn t.postorder → ∃ v, t.value I = .ok v
  | .number x, _, _ => ⟨I.number x, rfl⟩
  | .name n, _, total => total.name n (by simp [postorder])
  | .node op args, wf, total => by
    have totalArgs : I.TotalOn (postorderAll args) :=
      ⟨fun n hn => total.name n (by simp [postorder, hn]),
        fun o ho => total.apply o (by simp [postorder, ho])⟩
    obtain ⟨values, hvs⟩ := valueAll_ok args wf.2 totalArgs
    obtain ⟨v, hv⟩ := total.apply op (by simp [postorder]) values
      ((length_valueAll hvs).trans wf.1)
    exact ⟨v, by rw [value, hvs]; exact hv⟩

theorem valueAll_ok {I : Interpretation α} : ∀ (ts : List Tree), AllWellFormed ts →
    I.TotalOn (postorderAll ts) → ∃ values, valueAll I ts = .ok values
  | [], _, _ => ⟨[], rfl⟩
  | t :: rest, wf, total => by
    obtain ⟨v, hv⟩ := value_ok t wf.1
      ⟨fun n hn => total.name n (by simp [postorderAll, hn]),
        fun o ho => total.apply o (by simp [postorderAll, ho])⟩
    obtain ⟨values, hvs⟩ := valueAll_ok rest wf.2
      ⟨fun n hn => total.name n (by simp [postorderAll, hn]),
        fun o ho => total.apply o (by simp [postorderAll, ho])⟩
    exact ⟨v :: values, by rw [valueAll, hv, hvs]⟩

end

/-! ## Reading a listing -/

mutual

/-- **Reading the listing of a tree** adds its meaning to the values and makes its
applications. -/
theorem read_postorder {I : Interpretation α} : ∀ (t : Tree) (stack : List α) {v : α},
    t.WellFormed → (∀ op, .operation op ∈ t.postorder → op.count.isIndex = true) →
    t.value I = .ok v →
    I.steps stack t.postorder = .ok (v :: stack) ∧
      I.applications stack t.postorder = t.applications I
  | .number x, stack, v, _, _, hv => by cases hv; exact ⟨rfl, rfl⟩
  | .name n, stack, v, _, _, hv => by
    simp only [value] at hv
    simp [postorder, Interpretation.steps, Interpretation.step, hv, Except.map,
      Interpretation.applications, Token.application?, applications]
  | .node op args, stack, v, wf, index, hv => by
    simp only [value] at hv
    cases hvs : valueAll I args with
    | error e => rw [hvs] at hv; cases hv
    | ok values =>
      simp only [hvs] at hv
      obtain ⟨hs, ha⟩ := read_postorderAll args stack wf.2
        (fun o ho => index o (by simp [postorder, ho])) hvs
      have hlen : values.reverse.length = op.arity := by
        rw [List.length_reverse, length_valueAll hvs, wf.1]
      have enough : op.arity ≤ (values.reverse ++ stack).length := by
        rw [List.length_append, hlen]; exact Nat.le_add_right _ _
      -- The values of the arguments are the newest, and the operation takes just these.
      have taken : ((values.reverse ++ stack).take op.arity).reverse = values := by
        rw [List.take_left' hlen, List.reverse_reverse]
      constructor
      · rw [postorder, Interpretation.steps_append, hs]
        simp only [Interpretation.steps]
        rw [I.step_operation enough (index op (by simp [postorder])), taken, hv,
          List.drop_left' hlen]
        rfl
      · rw [postorder, Interpretation.applications_append, ha, hs]
        simp only [Interpretation.applications, Token.application?_operation enough, taken,
          applications, hvs]
        split <;> simp

theorem read_postorderAll {I : Interpretation α} : ∀ (ts : List Tree) (stack : List α)
    {values : List α}, AllWellFormed ts →
    (∀ op, .operation op ∈ postorderAll ts → op.count.isIndex = true) →
    valueAll I ts = .ok values →
    I.steps stack (postorderAll ts) = .ok (values.reverse ++ stack) ∧
      I.applications stack (postorderAll ts) = applicationsAll I ts
  | [], stack, values, _, _, hvs => by cases hvs; exact ⟨rfl, rfl⟩
  | t :: rest, stack, values, wf, index, hvs => by
    simp only [valueAll] at hvs
    cases ht : t.value I with
    | error e => rw [ht] at hvs; cases hvs
    | ok v =>
      cases hr : valueAll I rest with
      | error e => rw [ht, hr] at hvs; cases hvs
      | ok vs =>
        rw [ht, hr] at hvs
        cases hvs
        obtain ⟨hs, ha⟩ := read_postorder t stack wf.1
          (fun o ho => index o (by simp [postorderAll, ho])) ht
        obtain ⟨hs', ha'⟩ := read_postorderAll rest (v :: stack) wf.2
          (fun o ho => index o (by simp [postorderAll, ho])) hr
        constructor
        · rw [postorderAll, Interpretation.steps_append, hs]
          simpa using hs'
        · rw [postorderAll, Interpretation.applications_append, hs, ha]
          exact congrArg _ ha'

end

theorem isIndex_of_steps {I : Interpretation α} {stack last : List α} {ts : List Token}
    (h : I.steps stack ts = .ok last) {op : Operation} (hop : .operation op ∈ ts) :
    op.count.isIndex = true := by
  obtain ⟨before, after, rfl⟩ := List.append_of_mem hop
  rw [Interpretation.steps_append] at h
  cases hb : I.steps stack before with
  | error e => rw [hb] at h; cases h
  | ok mid =>
    rw [hb] at h
    simp only [Interpretation.steps, Interpretation.step] at h
    split at h
    next stack hs =>
      split at hs
      · cases hs
      · split at hs
        · cases hs
        next index => simpa using index
    · cases h

/-- **A sequence is read to a value exactly if it lists a tree of that meaning**, where names and
operations have meanings throughout. -/
theorem fold_eq_ok_iff {I : Interpretation α} {ts : List Token} (total : I.TotalOn ts) {v : α} :
    I.fold ts = .ok v ↔ (∀ op, .operation op ∈ ts → op.count.isIndex = true) ∧
      ∃ t : Tree, t.WellFormed ∧ t.postorder = ts ∧ t.value I = .ok v := by
  constructor
  · intro h
    have steps := Interpretation.steps_of_fold h
    have index : ∀ op, .operation op ∈ ts → op.count.isIndex = true :=
      fun op hop => isIndex_of_steps steps hop
    obtain ⟨t, wf, rfl⟩ := depth?_eq_one_iff.mp (Interpretation.steps_depth steps)
    obtain ⟨w, hw⟩ := t.value_ok wf total
    have read := (read_postorder t [] wf index hw).1
    rw [steps] at read
    cases read
    exact ⟨index, t, wf, rfl, hw⟩
  · rintro ⟨index, t, wf, rfl, hv⟩
    rw [Interpretation.fold, (read_postorder t [] wf index hv).1]
    rfl

end Tree

/-! ## Evaluating a listing -/

namespace Expression

theorem served_of_evaluate {e : Expression} {level : Log.Level} {x : Float}
    (h : (e.evaluate level).2 = .ok x) {op : Operation} (hop : .operation op ∈ e.tokens) :
    op.count.servedBy e.pool.size = true := by
  -- A reading that does not stop comes to every operation of the sequence.
  have ops := e.reading.applications_operations (steps_of_evaluate h)
  have hmem : op ∈ e.tokens.filterMap Token.operation? :=
    List.mem_filterMap.mpr ⟨.operation op, hop, rfl⟩
  rw [← ops] at hmem
  obtain ⟨a, ha, rfl⟩ := List.mem_map.mp hmem
  exact allServed_of_evaluate h a ha

theorem evaluate_postorder {e : Expression} (level : Log.Level) {t : Tree} {x : Float}
    (wf : t.WellFormed) (listed : e.tokens = t.postorder) (hx : t.value e.reading = .ok x)
    (served : ∀ op, .operation op ∈ t.postorder → op.count.servedBy e.pool.size = true) :
    (e.evaluate level).2 = .ok x ∧
      (e.evaluate level).1.calls.toList = (t.applications e.reading).map Run.callOf ∧
      (t.applications e.reading).map Prod.fst = t.postorder.filterMap Token.operation? := by
  obtain ⟨hs, ha⟩ := Tree.read_postorder t [] wf
    (fun op hop => Count.isIndex_of_servedBy (served op hop)) hx
  have hserved : e.AllServed := allServed_of_operations fun op hop => served op (listed ▸ hop)
  obtain ⟨hv, hc⟩ := evaluate_agrees level e.bindings.value? e.stack e.pool hserved
  refine ⟨hv.trans ?_, hc.trans ?_, ?_⟩
  · rw [listed, Interpretation.fold]
    exact hs ▸ rfl
  · rw [listed]
    exact congrArg _ ha
  · rw [← ha]
    exact e.reading.applications_operations hs

/-- **The evaluation of a listing computes the tree**, whatever the stack and the buffers held
before: it gives the value of the tree, its calls are the applications in the tree, each once and
in postfix order, and it leaves nothing on the stack. It does so exactly if the pool has a buffer
for every operation of the tree. The tree has a value if all variables are bound and no operation
fails. -/
theorem evaluate_listing (e : Expression) (level : Log.Level) {t : Tree} (wf : t.WellFormed)
    (listed : e.tokens = t.postorder) :
    (e.AllBound → e.NoneFails → ∃ x, t.value e.reading = .ok x) ∧
      ∀ x, t.value e.reading = .ok x →
        ((∀ op, .operation op ∈ t.postorder → op.count.servedBy e.pool.size = true) ↔
          (e.evaluate level).2 = .ok x ∧
            (e.evaluate level).1.calls.toList = (t.applications e.reading).map Run.callOf ∧
            (t.applications e.reading).map Prod.fst = t.postorder.filterMap Token.operation? ∧
            (e.evaluate level).1.stack.count = 0) := by
  refine ⟨fun bound safe => t.value_ok wf (listed ▸ reading_totalOn bound safe), ?_⟩
  intro x hx
  constructor
  · intro served
    obtain ⟨hv, hc, ho⟩ := evaluate_postorder level wf listed hx served
    have clean := evaluate_clean level e.bindings.value? e.stack e.pool hv
    exact ⟨hv, hc, ho, by rw [← Run.length_values]; exact congrArg List.length clean⟩
  · rintro ⟨hv, -⟩ op hop
    exact served_of_evaluate hv (listed ▸ hop)

/-- The tree that `blended` lists. -/
def blendedTree : Tree :=
  .node (.operator (.builtin .add))
    [.node blend [.name "pi", .number 2.0, .name "e"], .node seven []]

theorem wellFormed_blendedTree : blendedTree.WellFormed := by
  simp only [blendedTree, Tree.WellFormed, Tree.AllWellFormed, and_true]
  exact ⟨rfl, rfl, rfl⟩

/-- The sample after a run that left two values on a full stack and one in a buffer. -/
def worn : Expression :=
  { sample with
    stack := ⟨#[3.0, 4.0], 2, fun _ => 7.0, by decide, by decide⟩
    pool := ⟨#[#[], #[5.0]], 2, 0, 0, fun _ _ => 6.0, Datum.room, by decide, by decide⟩ }

theorem evaluate_listing_worn :
    ∃ x, blendedTree.value worn.reading = .ok x ∧ (worn.evaluate .silent).2 = .ok x ∧
      (worn.evaluate .silent).1.calls.toList.map Call.op =
        [blend, seven, .operator (.builtin .add)] ∧
      (worn.evaluate .silent).1.stack.count = 0 := by
  obtain ⟨meaning, computes⟩ := evaluate_listing worn .silent wellFormed_blendedTree rfl
  obtain ⟨x, hx⟩ := meaning allBound_sample noneFails_sample
  obtain ⟨hv, hc, ho, hn⟩ := (computes x hx).mp fun _ => served_sample
  refine ⟨x, hx, hv, ?_, hn⟩
  rw [hc, List.map_map]
  exact ho

/-- Where no buffers are pooled, a tree whose function has its count given as a truth value has a
value, and the evaluation of its listing does not find it. -/
theorem evaluate_doubtful_listing :
    (Tree.node doubt [.number 1.0]).WellFormed ∧
      (unpooled (Tree.node doubt [.number 1.0]).postorder).NoneFails ∧
      (Tree.node doubt [.number 1.0]).value
          (unpooled (Tree.node doubt [.number 1.0]).postorder).reading = .ok (0.0 + 1.0) ∧
      ((unpooled (Tree.node doubt [.number 1.0]).postorder).evaluate .silent).2 =
        .error (.notLength (.truth true)) := by
  refine ⟨⟨rfl, trivial, trivial⟩, ?_, rfl, rfl⟩
  intro op hop args _
  obtain rfl : op = doubt := by
    simpa [unpooled, ofTokens, Tree.postorder, Tree.postorderAll] using hop
  exact ⟨_, rfl⟩

end Expression
end ReversePolish

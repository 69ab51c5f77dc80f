/-
Levels and what is reported. A level is a filter and nothing else: what is done
at it ends as it does at the greatest level, in the same state, and the
messages are those that the level wants (`Workspace.steps_atLevel`). So two
levels differ in nothing but the messages, from the making of an expression to
the end of a script (`Workspace.account_atLevels`).

At the greatest level every message is wanted. What is shown of each part of a
step is therefore one equation: to do it at a level is to do it at the greatest
one and to drop what the level does not want.
-/
import ReversePolish.Expression.Workspace

namespace ReversePolish
namespace Log

/-- The messages that a level wants. -/
def heard (level : Level) (ms : List Message) : List Message := ms.filter (·.shownAt level)

@[simp] theorem shownAt_verbose (m : Message) : m.shownAt .verbose = true := by
  obtain ⟨severity, body⟩ := m
  cases severity <;> rfl

@[simp] theorem shownAt_silent (m : Message) : m.shownAt .silent = false := by
  obtain ⟨severity, body⟩ := m
  cases severity <;> rfl

@[simp] theorem heard_silent (ms : List Message) : heard .silent ms = [] := by simp [heard]

@[simp] theorem heard_append (level : Level) (ms later : List Message) :
    heard level (ms ++ later) = heard level ms ++ heard level later := List.filter_append ..

/-- A message that is reported if it is wanted. -/
theorem heard_singleton (level : Level) (m : Message) :
    heard level [m] = if m.shownAt level then [m] else [] := by
  simp only [heard, List.filter_cons, List.filter_nil]

end Log

/-! ## Runs -/

namespace Run

/-- The run with the messages that a level wants. -/
def atLevel (level : Log.Level) (r : Run) : Run :=
  { r with messages := r.messages.filter (·.shownAt level) }

variable (level : Log.Level)

@[simp] theorem stack_atLevel (r : Run) : (r.atLevel level).stack = r.stack := rfl

@[simp] theorem pool_atLevel (r : Run) : (r.atLevel level).pool = r.pool := rfl

theorem report_atLevel (r : Run) (m : Log.Message) :
    (r.atLevel level).report level m = (r.report .verbose m).atLevel level := by
  simp only [report, Log.shownAt_verbose, if_true, atLevel]
  split
  next wanted => rw [Array.filter_push_of_pos wanted (by simp)]
  next unwanted => rw [Array.filter_push_of_neg unwanted (by simp)]

theorem fail_atLevel (r : Run) (e : EvalError) :
    (r.atLevel level).fail level e = Prod.map (atLevel level) id (r.fail .verbose e) := by
  simp only [fail, report_atLevel, Prod.map_apply, id]

theorem stage_atLevel (address : Nat) :
    ∀ (k : Nat) (r : Run), (r.atLevel level).stage address k = (r.stage address k).atLevel level
  | 0, _ => rfl
  | k + 1, r => by
    simp only [stage, stack_atLevel]
    cases r.stack.pop? with
    | none => rfl
    | some p =>
      exact stage_atLevel address k { r with stack := p.2, pool := r.pool.write address k p.1 }

theorem acquire_atLevel (r : Run) (count : Count) :
    (r.atLevel level).acquire level count =
      Prod.map (atLevel level) id (r.acquire .verbose count) := by
  simp only [acquire, pool_atLevel]
  by_cases pooled : count.toNat < r.pool.size
  · simp only [pooled, if_true]
    rfl
  · simp only [pooled, if_false]
    exact congrArg (·, _) (report_atLevel level { r with pool := (r.pool.acquire count.toNat).2 } _)

theorem apply_atLevel (r : Run) (op : Operation) :
    (r.atLevel level).apply level op = Prod.map (atLevel level) id (r.apply .verbose op) := by
  simp only [apply, acquire_atLevel, stack_atLevel]
  by_cases short : r.stack.count < op.arity
  · simp only [short, if_true]
    exact fail_atLevel level r _
  · simp only [short, if_false]
    cases r.acquire .verbose op.count with
    | mk asked outcome =>
    cases outcome with
    | error e => rfl
    | ok address =>
      simp only [Prod.map_apply, id, stage_atLevel, pool_atLevel]
      cases op.apply ((asked.stage address op.arity).pool.contents address) <;> rfl

theorem token_atLevel (value? : String → Option Float) (r : Run) (t : Token) :
    (r.atLevel level).token level value? t =
      Prod.map (atLevel level) id (r.token .verbose value? t) := by
  cases t with
  | number x => rfl
  | name n =>
    simp only [token]
    cases value? n with
    | some x => rfl
    | none => exact fail_atLevel level r _
  | operation op => exact apply_atLevel level r op

/-- **A level only filters what a run reports.** -/
theorem tokens_atLevel (value? : String → Option Float) (ts : List Token) (r : Run) :
    (r.atLevel level).tokens level value? ts =
      Prod.map (atLevel level) id (r.tokens .verbose value? ts) := by
  induction ts generalizing r with
  | nil => rfl
  | cons t ts ih =>
    simp only [tokens, token_atLevel]
    cases r.token .verbose value? t with
    | mk s stop =>
    cases stop with
    | none => exact ih s
    | some e => rfl

theorem finish_atLevel (r : Run) :
    (r.atLevel level).finish level = Prod.map (atLevel level) id (r.finish .verbose) := by
  simp only [finish, atLevel]
  split
  · rfl
  · exact congrArg (fun out => (out.1, _)) (fail_atLevel level r _)

end Run

/-- Evaluating at a level is evaluating at the greatest one, as far as the level wants to hear of
it. -/
theorem evaluate_atLevel (level : Log.Level) (value? : String → Option Float) (ts : List Token)
    (stack : OperandStack) (pool : ScratchPool) :
    evaluate level value? ts stack pool =
      Prod.map (Run.atLevel level) id (evaluate .verbose value? ts stack pool) := by
  have started : (Run.start stack pool).atLevel level = .start stack pool := rfl
  simp only [evaluate]
  rw [← started, Run.tokens_atLevel]
  rw [started]
  cases (Run.start stack pool).tokens .verbose value? ts with
  | mk s stop =>
  cases stop with
  | none => exact Run.finish_atLevel level s
  | some e => rfl

/-! ## Steps -/

namespace Expression

/-- The report with the messages that a level wants. -/
def Report.atLevel (level : Log.Level) (r : Report) : Report :=
  { r with messages := Log.heard level r.messages }

variable (level : Log.Level)

theorem creationMessages_atLevel (e : Expression) :
    e.creationMessages level = Log.heard level (e.creationMessages .verbose) := by
  simp [creationMessages, Log.heard]

theorem bindMessages_atLevel (refusal : Option BindError) :
    bindMessages level refusal = Log.heard level (bindMessages .verbose refusal) := by
  cases refusal with
  | none => rfl
  | some cause =>
    cases cause with
    | reserved name => simp only [bindMessages, Log.shownAt_verbose, if_true, Log.heard_singleton]
    | value cause => rfl

theorem validationMessages_atLevel (v : Validation) :
    validationMessages level v = Log.heard level (validationMessages .verbose v) := by
  simp only [validationMessages, Log.shownAt_verbose, Bool.and_true]
  cases v.valid with
  | true => rfl
  | false =>
    simp only [Bool.not_false, Bool.true_and, if_true, Log.heard_singleton]

theorem runStep_atLevel (e : Expression) :
    e.runStep level = Prod.map id (Report.atLevel level) (e.runStep .verbose) := by
  simp only [runStep, evaluate, evaluate_atLevel level]
  cases ReversePolish.evaluate .verbose e.bindings.value? e.tokens e.stack e.pool with
  | mk run outcome =>
  simp [Run.atLevel, Report.atLevel, afterRun, Log.heard]

theorem bindStep_atLevel (e : Expression) (entries : List (Name × Datum)) :
    e.bindStep level entries =
      Prod.map id (Report.atLevel level) (e.bindStep .verbose entries) := by
  simp only [bindStep, bindMessages_atLevel level]
  rfl

theorem sweepStep_atLevel (name : Name) (values : List Datum) (e : Expression)
    (found : List Float) :
    sweepStep level name e found values =
      Prod.map id (Report.atLevel level) (sweepStep .verbose name e found values) := by
  induction values generalizing e found with
  | nil => rfl
  | cons value rest ih =>
    simp only [sweepStep, bindStep_atLevel level]
    cases e.bindStep .verbose [(name, value)] with
    | mk bound binding =>
    simp only [Prod.map_apply, id, Report.atLevel]
    cases binding.result with
    | error cause => rfl
    | ok _ =>
      simp only [evaluate, evaluate_atLevel level]
      cases ReversePolish.evaluate .verbose bound.bindings.value? bound.tokens bound.stack
          bound.pool with
      | mk run outcome =>
      cases outcome with
      | error cause => simp [Run.atLevel, afterRun, Log.heard, Report.atLevel]
      | ok x =>
        simp only [Prod.map_apply, id, ih]
        simp [Run.atLevel, afterRun, Log.heard, Report.atLevel]

theorem named_atLevel (e : Expression) (given : Datum) {go go' : Name → Expression × Report}
    (h : ∀ name, go name = Prod.map id (Report.atLevel level) (go' name)) :
    e.named given go = Prod.map id (Report.atLevel level) (e.named given go') := by
  unfold named
  split
  · exact h _
  · rfl

/-- **A level only filters what a step reports.** -/
theorem step_atLevel (e : Expression) (s : Step) :
    e.step level s = Prod.map id (Report.atLevel level) (e.step .verbose s) := by
  cases s with
  | evaluate => exact runStep_atLevel level e
  | evaluateOn executor =>
    simp only [step, runStep_atLevel level, Log.shownAt_verbose, if_true, Prod.map_apply, id,
      Report.atLevel, Log.heard_append, Log.heard_singleton]
    rfl
  | bind name value => exact named_atLevel level e name fun _ => bindStep_atLevel level e _
  | bindAll entries =>
    simp only [step]
    split
    · exact bindStep_atLevel level e _
    · rfl
  | sweep name values =>
    simp only [step]
    split
    · rfl
    · rfl
    · exact named_atLevel level e name fun _ => sweepStep_atLevel level _ _ e []
  | value name => exact named_atLevel level e name fun _ => rfl
  | cell name => exact named_atLevel level e name fun _ => rfl
  | validate checked =>
    simp only [step, validationMessages_atLevel level]
    rfl
  | bindings | variableNames | userNames | render | symbolic | freeSymbols | size | tokens | shown
  | clearStats => rfl

end Expression

/-! ## Scripts -/

namespace Workspace

theorem step_atLevel (level : Log.Level) (w : Workspace) (s : Step) :
    w.step level s = Prod.map id (Expression.Report.atLevel level) (w.step .verbose s) := by
  cases s with
  | on s =>
    simp only [step, Expression.step_atLevel level]
    rfl
  | copy name =>
    simp only [step]
    split <;> rfl
  | use name =>
    simp only [step]
    split
    · split <;> rfl
    · rfl

/-- The reports that a level wants to hear, each with the workspace after it. -/
def heardReports (level : Log.Level) (reports : List (Expression.Report × Workspace)) :
    List (Expression.Report × Workspace) :=
  reports.map (Prod.map (Expression.Report.atLevel level) id)

/-- **A level only filters what a script reports.** -/
theorem steps_atLevel (level : Log.Level) (w : Workspace) (script : List Step) :
    w.steps level script = heardReports level (w.steps .verbose script) := by
  induction script generalizing w with
  | nil => rfl
  | cons s rest ih =>
    simp only [steps, step_atLevel level w s, ih]
    rfl

/-- What is told of making an expression from such parts, where there is so much room, and of a
script on it: the messages of the making, and then each report with the workspace after it. -/
def account (level : Log.Level) (room : Nat) (entries : List Entry) (userNames : Datum)
    (config : Config) (name : String) (script : List Step) :
    Except CreationError (List Log.Message × List (Expression.Report × Workspace)) :=
  (Expression.make entries userNames config room).map fun e =>
    (e.creationMessages level, (start name e).steps level script)

/-- What comes of each step whatever is reported: its result, its calls and the state after it. -/
def outcomes (reports : List (Expression.Report × Workspace)) :
    List (Except Expression.StepError Expression.Reply × List Call × Workspace) :=
  reports.map fun (report, w) => (report.result, report.calls, w)

theorem outcomes_heardReports (level : Log.Level)
    (reports : List (Expression.Report × Workspace)) :
    outcomes (heardReports level reports) = outcomes reports := by
  simp only [outcomes, heardReports, List.map_map]
  rfl

/-- **Reporting only observes, and the level is a filter.** At any two levels an expression is made
or refused alike, and a script on it has the same results and calls and leaves the same state after
every step. The messages at a level, of the making and of each step, are those at the greatest
level whose severity the level admits, in the same order; at the least level there are none. -/
theorem account_atLevels (level level' : Log.Level) (room : Nat) (entries : List Entry)
    (userNames : Datum) (config : Config) (name : String) (script : List Step) :
    (account level room entries userNames config name script).map (fun told => outcomes told.2) =
        (account level' room entries userNames config name script).map
          (fun told => outcomes told.2) ∧
      account level room entries userNames config name script =
        (account .verbose room entries userNames config name script).map
          (Prod.map (Log.heard level) (heardReports level)) ∧
      ∀ made reports,
        account .silent room entries userNames config name script = .ok (made, reports) →
          made = [] ∧ ∀ told ∈ reports, told.1.messages = [] := by
  -- Both levels are compared with the greatest one.
  have filtered (level : Log.Level) : account level room entries userNames config name script =
      (account .verbose room entries userNames config name script).map
        (Prod.map (Log.heard level) (heardReports level)) := by
    unfold account
    cases Expression.make entries userNames config room with
    | error cause => rfl
    | ok e =>
      simp only [Except.map, Prod.map_apply]
      rw [Expression.creationMessages_atLevel, steps_atLevel level]
  have kept (level : Log.Level) :
      (account level room entries userNames config name script).map (fun told => outcomes told.2) =
        (account .verbose room entries userNames config name script).map
          (fun told => outcomes told.2) := by
    rw [filtered level]
    cases account .verbose room entries userNames config name script with
    | error cause => rfl
    | ok told => exact congrArg Except.ok (outcomes_heardReports level told.2)
  refine ⟨(kept level).trans (kept level').symm, filtered level, ?_⟩
  intro made reports h
  rw [filtered] at h
  cases hv : account .verbose room entries userNames config name script with
  | error cause => rw [hv] at h; cases h
  | ok told =>
    rw [hv] at h
    cases h
    refine ⟨Log.heard_silent _, List.forall_mem_map.mpr fun told' _ => ?_⟩
    exact Log.heard_silent _

/-- The severities of the messages that are told of, of the making and of each step. -/
def severities (told : List Log.Message × List (Expression.Report × Workspace)) :
    List Log.Severity × List (List Log.Severity) :=
  (told.1.map (·.severity), told.2.map fun (report, _) => report.messages.map (·.severity))

/-- What is told of a constant that a caller's function shadows: it is evaluated in vain, and does
not pass a check. -/
def shadowed (level : Log.Level) :
    Except CreationError (List Log.Message × List (Expression.Report × Workspace)) :=
  account level Datum.room [.token (.name "e")] (.list [.text "e"]) {} "main"
    [.on .evaluate, .on (.validate none)]

theorem account_atLevels_shadowed :
    (shadowed .verbose).map severities = .ok ([.warning, .debug], [[.debug], [.info]]) ∧
      (shadowed .detailed).map severities = .ok ([.warning], [[], [.info]]) ∧
      ∃ reports, shadowed .silent = .ok ([], reports) ∧ reports.length = 2 ∧
        ∀ told ∈ reports, told.1.messages = [] := by
  obtain ⟨-, filtered, silent⟩ := account_atLevels .detailed .silent Datum.room
    [.token (.name "e")] (.list [.text "e"]) {} "main" [.on .evaluate, .on (.validate none)]
  refine ⟨rfl, ?_, _, rfl, rfl, (silent _ _ rfl).2⟩
  rw [shadowed, filtered]
  rfl

end Workspace
end ReversePolish

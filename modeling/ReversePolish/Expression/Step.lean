/-
What can be asked of an expression, as data, and what comes back. `step` gives
the expression afterwards together with a report: the result, the calls of
operations and the messages, in order.
-/
import ReversePolish.Expression.Basic

namespace ReversePolish
namespace Expression

inductive Step where
  | evaluate
  /-- Evaluates the expression on an executor of the given name, and waits for the value. -/
  | evaluateOn (executor : String)
  | bind (name value : Datum)
  /-- Binds what the entries come to as a mapping. -/
  | bindAll (entries : List (Datum × Datum))
  /-- Binds a variable to one value after the other and evaluates for each. -/
  | sweep (name values : Datum)
  | value (name : Datum)
  | bindings
  /-- The value of a variable as it is shown. -/
  | cell (name : Datum)
  | variableNames
  | userNames
  | validate (checkVariables : Option Bool)
  | render
  | symbolic
  | freeSymbols
  | size
  | tokens
  | shown
  | clearStats

inductive StepError where
  | bind (cause : BindError)
  | eval (cause : EvalError)
  /-- What is given for a name is none. -/
  | key (cause : Datum.KeyError)
  /-- A name whose value is asked for has none. -/
  | noValue (name : Name)
  /-- Nothing is kept or bound under a name that is looked up. -/
  | noEntry (name : Name)
  /-- What is given for the values of a sweep is no collection. -/
  | values (cause : Datum.ItemError)
  /-- The names of functions have no order. -/
  | order (cause : Datum.OrderError)

def StepError.message : StepError → String
  | .bind cause => cause.message
  | .eval cause => cause.message
  | .key cause => cause.message
  | .noValue name => EvalError.noValue name.datum.message
  | .noEntry name => name.datum.shown
  | .values cause => cause.message
  | .order cause => cause.message

inductive Reply where
  | done
  | nothing
  /-- A value that was computed. -/
  | computed (x : Float)
  | computedAll (xs : List Float)
  | number (x : Float)
  | entries (entries : List Binding)
  | text (s : String)
  | texts (s : List String)
  | name (name : Name)
  | names (names : List Name)
  | count (n : Nat)
  | validation (v : Validation)
  | term (a : Symbolic)
  | copied

structure Report where
  result : Except StepError Reply
  calls : List Call
  messages : List Log.Message

def Report.pure (result : Except StepError Reply) : Report := ⟨result, [], []⟩

def runStep (level : Log.Level) (e : Expression) : Expression × Report :=
  let (run, outcome) := e.evaluate level
  (e.afterRun run,
    ⟨match outcome with
      | .ok x => .ok (.computed x)
      | .error cause => .error (.eval cause),
      run.calls.toList, run.messages.toList⟩)

def bindStep (level : Log.Level) (e : Expression) (entries : List (Name × Datum)) :
    Expression × Report :=
  let (e, refusal) := e.bindAll entries
  (e, ⟨match refusal with
      | some cause => .error (.bind cause)
      | none => .ok .done, [], bindMessages level refusal⟩)

/-- A sweep as a step: the values that were found before `found`, and the calls and messages
of the whole sweep. -/
def sweepStep (level : Log.Level) (name : Name) :
    Expression → List Float → List Datum → Expression × Report
  | e, found, [] => (e, .pure (.ok (.computedAll found.reverse)))
  | e, found, value :: rest =>
    let (e, binding) := e.bindStep level [(name, value)]
    match binding.result with
    | .error cause => (e, { binding with result := .error cause })
    | .ok _ =>
      let (run, outcome) := e.evaluate level
      let e := e.afterRun run
      match outcome with
      | .error cause => (e, ⟨.error (.eval cause), run.calls.toList, run.messages.toList⟩)
      | .ok x =>
        let (e, later) := sweepStep level name e (x :: found) rest
        (e, { later with
          calls := run.calls.toList ++ later.calls
          messages := run.messages.toList ++ later.messages })

/-- The result of a question about the tokens alone. -/
def ofEval {α : Type} (reply : α → Reply) : Except EvalError α → Except StepError Reply
  | .ok a => .ok (reply a)
  | .error cause => .error (.eval cause)

/-- A step that is about a name, if what is given for it is one. -/
def named (e : Expression) (given : Datum) (go : Name → Expression × Report) :
    Expression × Report :=
  match Name.ofDatum? given with
  | .ok name => go name
  | .error cause => (e, .pure (.error (.key cause)))

def step (level : Log.Level) (e : Expression) : Step → Expression × Report
  | .evaluate => e.runStep level
  | .evaluateOn executor =>
    let submission : Log.Message := ⟨.info, "Submitting evaluation to " ++ executor⟩
    let (e, report) := e.runStep level
    (e, { report with
      messages := (if submission.shownAt level then [submission] else []) ++ report.messages })
  | .bind name value => e.named name fun name => e.bindStep level [(name, value)]
  | .bindAll entries => match Name.ofData? (entries.map (·.1)) with
    | .ok names => e.bindStep level (Name.mapping (names.zip (entries.map (·.2))))
    | .error cause => (e, .pure (.error (.key cause)))
  | .sweep name values => match values.items? with
    | .error cause => (e, .pure (.error (.values cause)))
    | .ok [] => (e, .pure (.ok (.computedAll [])))
    | .ok values => e.named name fun name => sweepStep level name e [] values
  | .value name => e.named name fun name => (e, .pure (match e.bindings.find? name.key with
      | some x => .ok (.number x)
      | none => .error (.noValue name)))
  | .bindings => (e, .pure (.ok (.entries e.bindings.entries)))
  | .cell name => e.named name fun name => (e, .pure (match e.bindings.find? name.key with
      | some x => .ok (.text ("VariableValue(" ++ Numeral.ofFloat x ++ ")"))
      | none => .error (.noEntry name)))
  | .variableNames => (e, .pure (.ok (.texts e.variableNames)))
  | .userNames => (e, .pure (match Name.sorted? e.userNames with
      | .ok names => .ok (.names names)
      | .error cause => .error (.order cause)))
  | .validate checkVariables =>
    let v := e.validate checkVariables
    (e, ⟨.ok (.validation v), [], validationMessages level v⟩)
  | .render =>
    let (e, text) := e.render
    (e, .pure (ofEval .text text))
  | .symbolic => (e, .pure (ofEval .term e.symbolic))
  | .freeSymbols => (e, .pure (ofEval (fun a => .texts a.freeSymbols) e.symbolic))
  | .size => (e, .pure (.ok (.count e.size)))
  | .tokens => (e, .pure (.ok (.texts (e.tokens.map Token.shown))))
  | .shown => (e, .pure (.ok (.text e.shown)))
  | .clearStats => ({ e with pool := e.pool.clearStats }, .pure (.ok .nothing))

end Expression
end ReversePolish

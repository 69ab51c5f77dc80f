/-
Expressions: a token sequence with the values of its variables, and with the
stack and the buffers that its evaluations use. A copy has its own bindings,
which are values (see `Bindings`), with a new stack and new buffers. The names
of functions, built in or the caller's, are reserved: no variable is ever bound
to one.
-/
import ReversePolish.Bindings
import ReversePolish.Config
import ReversePolish.Evaluation
import ReversePolish.Rendering
import ReversePolish.Symbolic.OfTokens
import ReversePolish.Text.Sorted
import ReversePolish.Validation

namespace ReversePolish

structure Expression where
  tokens : List Token
  /-- The names of the caller's functions, each once. -/
  userNames : List Name
  config : Config
  bindings : Bindings
  stack : OperandStack
  pool : ScratchPool
  /-- The text of the expression, once it has been asked for. -/
  text : Option String

/-- Something in the place of a token. -/
inductive Entry where
  | token (t : Token)
  | other (d : Datum)

inductive CreationError where
  | notToken (given : Datum)
  /-- What is given for the names of functions is no collection. -/
  | names (cause : Datum.ItemError)
  /-- An entry of the collection is no name. -/
  | key (cause : Datum.KeyError)
  /-- There is no stack of the capacity that the settings have. -/
  | stack (cause : Datum.LengthError)

def CreationError.message : CreationError → String
  | .notToken given => "Expected a Token, got " ++ given.typeWord
  | .names cause => cause.message
  | .key cause => cause.message
  | .stack cause => cause.message

inductive BindError where
  | reserved (name : Name)
  | value (cause : Datum.ReadError)

def BindError.message : BindError → String
  | .reserved name =>
    "The variable name '" ++ name.datum.message ++
      "' is invalid. Since there exists a function with the same name"
  | .value cause => cause.message

/-- The names in a collection, each once. What counts as false holds none. -/
def Datum.names? (d : Datum) : Except CreationError (List Name) :=
  if !d.isTruthy then .ok []
  else match d.items? with
    | .error cause => .error (.names cause)
    | .ok items => match Name.ofData? items with
      | .ok names => .ok (Name.distinct names)
      | .error cause => .error (.key cause)

def Entry.tokens? : List Entry → Except CreationError (List Token)
  | [] => .ok []
  | .token t :: rest => match tokens? rest with
    | .ok tokens => .ok (t :: tokens)
    | .error e => .error e
  | .other d :: _ => .error (.notToken d)

namespace Expression

def isReserved (userNames : List Name) (key : Key) : Bool :=
  (BuiltinFunction.names.map Key.text).contains key || (userNames.map Name.key).contains key

/-- The constants that a new expression binds: all that no function shadows. -/
def initialBindings (userNames : List Name) : Bindings :=
  builtinConstants.foldl (fun b (name, value) =>
    if isReserved userNames (.text name) then b else b.set (.text name) value) .empty

/-- A warning for each constant that a function shadows. -/
def shadowWarnings (userNames : List Name) : List Log.Message :=
  (builtinConstants.filter fun (name, _) => isReserved userNames (.text name)).map fun (name, _) =>
    { severity := .warning
      body := "User function '" ++ name ++ "' shadows the built-in constant; constant not bound" }

/-- A new expression over checked parts. -/
def ofTokens (tokens : List Token) (userNames : List Name) (config : Config) : Expression where
  tokens := tokens
  userNames := userNames
  config := config
  bindings := initialBindings userNames
  stack := .ofCapacity config.initialStackCapacity config.capacity_pos
  pool := .ofSize config.scratchPoolSize
  text := none

def creationMessages (level : Log.Level) (e : Expression) : List Log.Message :=
  let creation : Log.Message :=
    ⟨.debug, "Created expression with " ++ toString e.tokens.length ++ " tokens"⟩
  (shadowWarnings e.userNames ++ [creation]).filter (·.shownAt level)

/-- Makes an expression. The entries are looked at before the names, and the capacity of the
stack last. -/
def make (entries : List Entry) (userNames : Datum) (config : Config)
    (room : Nat := Datum.room) : Except CreationError Expression := do
  let tokens ← Entry.tokens? entries
  let names ← userNames.names?
  match Datum.checkLength room config.initialStackCapacity with
  | .ok _ => .ok (ofTokens tokens names config)
  | .error cause => .error (.stack cause)

/-- The same expression with bindings of its own and nothing on its stack. -/
def copy (e : Expression) : Expression :=
  { e with
    stack := .ofCapacity e.config.initialStackCapacity e.config.capacity_pos
    pool := .ofSize e.config.scratchPoolSize }

/-- Binds a variable. A reserved name is refused whatever the value. -/
def bind (e : Expression) (name : Name) (value : Datum) : Except BindError Expression :=
  if isReserved e.userNames name.key then .error (.reserved name)
  else match value.toFloat? with
    | .ok x => .ok { e with bindings := e.bindings.set name x }
    | .error cause => .error (.value cause)

/-- Binds variables in order until one is refused; those before it stay bound. -/
def bindAll (e : Expression) : List (Name × Datum) → Expression × Option BindError
  | [] => (e, none)
  | (name, value) :: rest =>
    match e.bind name value with
    | .ok e => e.bindAll rest
    | .error cause => (e, some cause)

def bindMessages (level : Log.Level) : Option BindError → List Log.Message
  | some (.reserved name) =>
    let m : Log.Message :=
      ⟨.debug, "Rejected variable name '" ++ name.datum.message ++
        "': function with the same name exists"⟩
    if m.shownAt level then [m] else []
  | _ => []

/-- Checks the expression; unless told otherwise, as its settings have it. -/
def validate (e : Expression) (checkVariables : Option Bool) : Validation :=
  ReversePolish.validate e.tokens (fun name => e.bindings.contains (.text name))
    (checkVariables.getD e.config.checkVariablesOnValidate)

def validationMessages (level : Log.Level) (v : Validation) : List Log.Message :=
  let m : Log.Message := ⟨.info, v.summary⟩
  if !v.valid && m.shownAt level then [m] else []

def evaluate (e : Expression) (level : Log.Level) : Run × Except EvalError Float :=
  ReversePolish.evaluate level e.bindings.value? e.tokens e.stack e.pool

/-- The expression after a run: its stack and pool are those that the run left. -/
def afterRun (e : Expression) (r : Run) : Expression := { e with stack := r.stack, pool := r.pool }

/-- The text of the expression, which is found once and then kept. -/
def render (e : Expression) : Expression × Except EvalError String :=
  match e.text with
  | some text => (e, .ok text)
  | none => match rendering e.tokens with
    | .ok text => ({ e with text := some text }, .ok text)
    | .error cause => (e, .error cause)

def symbolic (e : Expression) : Except EvalError Symbolic := ReversePolish.symbolic e.tokens

def variableNames (e : Expression) : List String := ReversePolish.variableNames e.tokens

def size (e : Expression) : Nat := e.tokens.length

def shown (e : Expression) : String :=
  "Expression(tokens=" ++ toString e.size ++ ", variables=[" ++
    ", ".intercalate ((sorted e.variableNames).map quoted) ++ "])"

end Expression
end ReversePolish

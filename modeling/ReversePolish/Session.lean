/-
Working with expressions while a hub carries the messages. Every step that
needs an expression makes a new one; whatever is reported on the way is passed
on by the hub, at its level.
-/
import ReversePolish.Expression.Step
import ReversePolish.Log.Hub

namespace ReversePolish
namespace Session

open Log (Hub Level Severity)

inductive Step where
  /-- Configures the hub, with a log file at a path if there is one. -/
  | configure (level : Level) (path? : Option Datum)
  | setLevel (level : Level)
  | level
  /-- Does the hub's level want what the given one asks for? -/
  | admits (required : Level)
  /-- Does the hub's level want debugging messages? -/
  | debugging
  | report (m : Log.Message)
  /-- Reports at a level of its own. -/
  | reportAt (level : Level) (m : Log.Message)
  | attach (id : Nat)
  | detach (id : Nat)
  | create (entries : List Entry) (userNames : Datum)
  /-- Makes an expression and does one step with it. -/
  | on (entries : List Entry) (userNames : Datum) (step : Expression.Step)

inductive StepError where
  | file (cause : Log.FileError)
  | creation (cause : CreationError)
  | step (cause : Expression.StepError)

inductive Reply where
  | done
  | nothing
  | level (level : Level)
  | truth (b : Bool)
  | size (n : Nat)
  | step (reply : Expression.Reply)

/-- Makes an expression with the usual settings and has what it reports passed on. -/
def create (h : Hub) (entries : List Entry) (userNames : Datum) :
    Hub × Except StepError Expression :=
  match Expression.make entries userNames {} with
  | .ok e => (h.sendAll (Expression.creationMessages h.level e), .ok e)
  | .error cause => (h, .error (.creation cause))

def step (h : Hub) : Step → Hub × Except StepError Reply
  | .configure level path? => match h.configure level path? with
    | (h, none) => (h, .ok .done)
    | (h, some cause) => (h, .error (.file cause))
  | .setLevel level => ({ h with level := level }, .ok .nothing)
  | .level => (h, .ok (.level h.level))
  | .admits required => (h, .ok (.truth (h.level.admits required)))
  | .debugging => (h, .ok (.truth (h.level.admits Severity.debug.required)))
  | .report m => (h.sendAt h.level m, .ok .nothing)
  | .reportAt level m => (h.sendAt level m, .ok .nothing)
  | .attach id => (h.attach (.application id), .ok .nothing)
  | .detach id => (h.detach (.application id), .ok .nothing)
  | .create entries userNames => match create h entries userNames with
    | (h, .ok e) => (h, .ok (.size e.size))
    | (h, .error cause) => (h, .error cause)
  | .on entries userNames s => match create h entries userNames with
    | (h, .ok e) =>
      let (_, report) := e.step h.level s
      (h.sendAll report.messages, match report.result with
        | .ok reply => .ok (.step reply)
        | .error cause => .error (.step cause))
    | (h, .error cause) => (h, .error cause)

/-- The steps one after the other: each result with the hub after it, which holds what was
written in that step alone. -/
def steps (h : Hub) : List Step → List (Except StepError Reply × Hub)
  | [] => []
  | s :: rest =>
    let (h, result) := step h.seen s
    (result, h) :: steps h rest

end Session
end ReversePolish

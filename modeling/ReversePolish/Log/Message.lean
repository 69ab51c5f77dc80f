/-
What the library reports while it works. A message has a severity, and a level
says which severities are wanted: none, the warnings, also what is worth
knowing, or everything.
-/
import ReversePolish.Name

namespace ReversePolish
namespace Log

inductive Level where
  | silent
  | minimal
  | detailed
  | verbose
  deriving DecidableEq, Repr

namespace Level

/-- The place in the order of the levels. -/
def value : Level → Nat
  | .silent => 0
  | .minimal => 1
  | .detailed => 2
  | .verbose => 3

def name : Level → String
  | .silent => "SILENT"
  | .minimal => "MINIMAL"
  | .detailed => "DETAILED"
  | .verbose => "VERBOSE"

def all : List Level := [.silent, .minimal, .detailed, .verbose]

def find? (name : String) : Option Level := all.find? (·.name = name)

inductive ReadError where
  | key (cause : Datum.KeyError)
  | unknown (name : Name)

def ReadError.message : ReadError → String
  | .key cause => cause.message
  | .unknown name => name.datum.shown

def ofDatum? (d : Datum) : Except ReadError Level :=
  match Name.ofDatum? d with
  | .error cause => .error (.key cause)
  | .ok (.text s) => match find? s with
    | some level => .ok level
    | none => .error (.unknown (.text s))
  | .ok name => .error (.unknown name)

/-- Is what `required` asks for wanted at this level? -/
def admits (level required : Level) : Bool := required.value ≤ level.value

end Level

inductive Severity where
  | debug
  | info
  | warning
  deriving DecidableEq, Repr

namespace Severity

/-- The least level at which such messages are wanted. -/
def required : Severity → Level
  | .debug => .verbose
  | .info => .detailed
  | .warning => .minimal

def label : Severity → String
  | .debug => "DEBUG"
  | .info => "INFO"
  | .warning => "WARNING"

end Severity

structure Message where
  severity : Severity
  body : String
  deriving DecidableEq, Repr

namespace Message

/-- The message as it is passed on: debugging messages are marked as such. -/
def text (m : Message) : String :=
  match m.severity with
  | .debug => "DEBUG: " ++ m.body
  | _ => m.body

def lines (m : Message) : List String := (m.severity.label ++ " - " ++ m.text).splitOn "\n"

def shownAt (level : Level) (m : Message) : Bool := level.admits m.severity.required

end Message
end Log
end ReversePolish

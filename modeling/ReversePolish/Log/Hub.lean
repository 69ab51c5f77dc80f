/-
Where messages go. A hub passes what it is sent on to its handlers in order:
those that configuring it attached, a console and perhaps a file, and those
of the application, which configuring leaves alone. The hub remembers which
handlers are its own; the next configuration takes them away again.
-/
import ReversePolish.Log.FileSystem
import ReversePolish.Log.Message

namespace ReversePolish
namespace Log

/-- A receiver of messages. Those that a hub makes for itself are told apart by a number. -/
inductive Handler where
  /-- Drops everything. -/
  | null
  | console (serial : Nat)
  | file (serial : Nat) (place : Place)
  /-- One of the application's own. -/
  | application (id : Nat)
  deriving DecidableEq, Repr

def Handler.className : Handler → String
  | .null => "NullHandler"
  | .console _ => "StreamHandler"
  | .file _ _ => "FileHandler"
  | .application _ => "App"

/-- What has been written and not yet been looked at, with the files it was written to. -/
structure Output where
  console : List String
  system : FileSystem
  /-- What the application's handlers were given: the label and the text. -/
  records : List (String × String)

namespace Output

def start : Output := ⟨[], .usual, []⟩

def seen (o : Output) : Output := ⟨[], o.system.seen, []⟩

end Output

structure Hub where
  /-- The level of those who report through the hub without a level of their own. -/
  level : Level
  /-- Before the first configuration only warnings pass. -/
  configured : Bool
  /-- The handlers in the order in which they are given messages. -/
  handlers : List Handler
  /-- Those of the handlers that configuring made. -/
  installed : List Handler
  /-- The number of the next handler to be made. -/
  next : Nat
  output : Output

namespace Hub

def defaultLevel : Level := .minimal

def start : Hub where
  level := defaultLevel
  configured := false
  handlers := [.null]
  installed := []
  next := 0
  output := .start

/-- The name of a log file for which no other is asked, from the time at which it is made. -/
def fileName (time : String) : String := "postfix_eval_" ++ time ++ ".log"

def deliver (m : Message) (o : Output) : Handler → Output
  | .null => o
  | .console _ => { o with console := o.console ++ m.lines }
  | .file _ place => { o with system := o.system.append place m.lines }
  | .application _ => { o with records := o.records ++ [(m.severity.label, m.text)] }

def send (h : Hub) (m : Message) : Hub :=
  if h.configured || m.severity == .warning then
    { h with output := h.handlers.foldl (deliver m) h.output }
  else h

def sendAll (h : Hub) (ms : List Message) : Hub := ms.foldl send h

def sendAt (h : Hub) (level : Level) (m : Message) : Hub :=
  if m.shownAt level then h.send m else h

/-- Attaches a handler at the end; one that is attached stays where it is. -/
def attach (h : Hub) (x : Handler) : Hub :=
  if h.handlers.contains x then h else { h with handlers := h.handlers ++ [x] }

/-- Takes a handler away; one that is not attached is not missed. -/
def detach (h : Hub) (x : Handler) : Hub := { h with handlers := h.handlers.erase x }

/-- Makes a handler of the hub's own, which is not attached yet. -/
def install (h : Hub) (make : Nat → Handler) : Hub :=
  { h with installed := h.installed ++ [make h.next], next := h.next + 1 }

def close (h : Hub) : Handler → Hub × Option FileError
  | .file _ place =>
    let (system, cause?) := h.output.system.close place
    ({ h with output := { h.output with system := system } }, cause?)
  | _ => (h, none)

/-- Takes handlers away and closes them, until one cannot be closed as it should be. -/
def release (h : Hub) : List Handler → Hub × Option FileError
  | [] => (h, none)
  | x :: rest => match (h.detach x).close x with
    | (h, none) => h.release rest
    | (h, some cause) => (h, some cause)

/-- Takes the hub's own handlers away and forgets them, if all can be closed. -/
def uninstall (h : Hub) : Hub × Option FileError :=
  match h.release h.installed with
  | (h, none) => ({ h with installed := [] }, none)
  | (h, some cause) => (h, some cause)

/-- Makes and attaches handlers of the hub's own: a console unless the level is silent, and a
file if there is a path. When the file cannot be opened none of them is attached. -/
def equip (h : Hub) (path? : Option Datum) : Hub × Option FileError :=
  let h := if h.level = .silent then h else h.install .console
  match path? with
  | none => (h.installed.foldl attach h, none)
  | some path => match h.output.system.place? path with
    | .ok place =>
      let h := h.install (.file · place)
      let h := { h with output := { h.output with system := h.output.system.make place } }
      (h.installed.foldl attach h, none)
    | .error cause => (h, some cause)

/-- Sets the level and replaces the hub's own handlers. -/
def configure (h : Hub) (level : Level) (path? : Option Datum) : Hub × Option FileError :=
  match { h with level := level, configured := true }.uninstall with
  | (h, none) => h.equip path?
  | (h, some cause) => (h, some cause)

def seen (h : Hub) : Hub := { h with output := h.output.seen }

end Hub
end Log
end ReversePolish

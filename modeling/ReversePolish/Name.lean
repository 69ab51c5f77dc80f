/-
Names of variables. A name is text as a rule, but any datum that is no
collection can be one. Names are told apart by their keys: numbers and truth
values have one key if they are equal, however they are written.
-/
import ReversePolish.Datum.Size

namespace ReversePolish

inductive Name where
  | null
  | truth (b : Bool)
  | whole (n : Int)
  /-- A number with a point, by the bits of the double. -/
  | real (bits : UInt64)
  | text (s : String)
  deriving DecidableEq, Repr

/-- What is looked up for a name. -/
inductive Key where
  | null
  | number (x : Quantity)
  | text (s : String)
  deriving DecidableEq, Repr

/-- Why a datum is no name, and nothing is looked up for it: it is a collection. -/
inductive Datum.KeyError where
  | collection (given : Datum)

def Datum.KeyError.message : Datum.KeyError → String
  | .collection given => "unhashable type: '" ++ given.typeWord ++ "'"

namespace Name

def ofDatum? : Datum → Except Datum.KeyError Name
  | .null => .ok .null
  | .truth b => .ok (.truth b)
  | .whole n => .ok (.whole n)
  | .real x => .ok (.real x.toBits)
  | .text s => .ok (.text s)
  | d => .error (.collection d)

def ofData? : List Datum → Except Datum.KeyError (List Name)
  | [] => .ok []
  | d :: rest => do
    let name ← ofDatum? d
    .ok (name :: (← ofData? rest))

def datum : Name → Datum
  | .null => .null
  | .truth b => .truth b
  | .whole n => .whole n
  | .real bits => .real (Float.ofBits bits)
  | .text s => .text s

def key : Name → Key
  | .null => .null
  | .truth b => .number (.ofWhole b.toInt)
  | .whole n => .number (.ofWhole n)
  | .real bits => .number (.ofFloat (Float.ofBits bits))
  | .text s => .text s

/-- Each name once: of those with one key the first. -/
def distinct (names : List Name) : List Name := names.eraseDupsBy fun m n => m.key == n.key

/-- Entries as a mapping: a name that comes again keeps its place and has its last entry. -/
def mapping {α : Type} (entries : List (Name × α)) : List (Name × α) :=
  entries.foldl (fun kept entry =>
    if kept.any (·.1.key == entry.1.key) then
      kept.map fun old => if old.1.key == entry.1.key then (old.1, entry.2) else old
    else kept ++ [entry]) []

/-- Does one name come before another? Texts are compared with each other, and so are numbers. -/
def precedes? (m n : Name) : Option Bool :=
  match m.key, n.key with
  | .text s, .text t => some (s < t)
  | .number x, .number y => some (x.less y)
  | _, _ => none

/-- The names in order, if each can be compared with the first. -/
def sorted? : List Name → Except Datum.OrderError (List Name)
  | [] => .ok []
  | first :: rest =>
    match rest.find? fun n => (n.precedes? first).isNone with
    | some n => .error ⟨"<", n.datum, first.datum⟩
    | none => .ok ((first :: rest).mergeSort fun m n => (n.precedes? m) != some true)

@[simp] theorem key_text (s : String) : (text s).key = .text s := rfl

end Name
end ReversePolish

/-
Values of no fixed type, as they come from outside where a number, a name or
a count is expected. A datum is shown in messages (`text`) and read as a
number (`toFloat?`), as a collection (`items?`) or as true or false
(`isTruthy`); what else it may stand for is decided where it is used.
-/
import ReversePolish.Number.Numeral
import ReversePolish.Number.Reading
import ReversePolish.Text.Quoted

namespace ReversePolish

inductive Datum where
  | null
  | truth (b : Bool)
  | whole (n : Int)
  | real (x : Float)
  | text (s : String)
  | list (items : List Datum)
  | record (fields : List (String × Datum))
  deriving Inhabited

namespace Datum

def truthWord (b : Bool) : String := if b then "True" else "False"

mutual

/-- The datum as it is shown inside a collection: text in quotes. -/
def shown : Datum → String
  | .null => "None"
  | .truth b => truthWord b
  | .whole n => toString n
  | .real x => Numeral.ofFloat x
  | .text s => quoted s
  | .list items => "[" ++ ", ".intercalate (shownItems items) ++ "]"
  | .record fields => "\x7b" ++ ", ".intercalate (shownFields fields) ++ "\x7d"

def shownItems : List Datum → List String
  | [] => []
  | d :: rest => d.shown :: shownItems rest

def shownFields : List (String × Datum) → List String
  | [] => []
  | (key, d) :: rest => (quoted key ++ ": " ++ d.shown) :: shownFields rest

end

/-- The datum as it stands in a message: text as it is. -/
def message : Datum → String
  | .text s => s
  | d => d.shown

def typeWord : Datum → String
  | .null => "NoneType"
  | .truth _ => "bool"
  | .whole _ => "int"
  | .real _ => "float"
  | .text _ => "str"
  | .list _ => "list"
  | .record _ => "dict"

inductive ReadError where
  /-- A whole number beyond the greatest double. -/
  | tooGreat
  /-- Text that is no numeral. -/
  | noNumeral (s : String)
  /-- Neither a number nor text. -/
  | noNumber (given : Datum)

def ReadError.message : ReadError → String
  | .tooGreat => "int too large to convert to float"
  | .noNumeral s => "could not convert string to float: " ++ quoted s
  | .noNumber given =>
    "float() argument must be a string or a real number, not '" ++ given.typeWord ++ "'"

/-- Does the datum count as true? Nothing, nought and whatever is empty do not. -/
def isTruthy : Datum → Bool
  | .null => false
  | .truth b => b
  | .whole n => n != 0
  | .real x => x != 0.0
  | .text s => !s.isEmpty
  | .list items => !items.isEmpty
  | .record fields => !fields.isEmpty

/-- Why nothing is taken out of a datum: it is no collection. -/
inductive ItemError where
  | notCollection (given : Datum)

def ItemError.message : ItemError → String
  | .notCollection given => "'" ++ given.typeWord ++ "' object is not iterable"

/-- What is in a collection: the items of a list, the keys of a record, the characters of a
text. -/
def items? : Datum → Except ItemError (List Datum)
  | .text s => .ok (s.toList.map fun c => .text (String.ofList [c]))
  | .list items => .ok items
  | .record fields => .ok (fields.map fun field => .text field.1)
  | d => .error (.notCollection d)

def ofWhole? (n : Int) : Option Float :=
  ((⟨n.natAbs, 0⟩ : Decimal).nearest).map fun size => (Binary64.finite (n < 0) size).toFloat

/-- Reads a datum as a double: a number as the nearest one, a truth value as nought or one,
text as the numeral it holds. -/
def toFloat? : Datum → Except ReadError Float
  | .truth b => .ok (if b then 1.0 else 0.0)
  | .whole n => match ofWhole? n with
    | some x => .ok x
    | none => .error .tooGreat
  | .real x => .ok x
  | .text s => match Numeral.read? s with
    | some x => .ok x
    | none => .error (.noNumeral s)
  | d => .error (.noNumber d)

end Datum
end ReversePolish

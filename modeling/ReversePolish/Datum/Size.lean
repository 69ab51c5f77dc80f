/-
Data where a size or a place is expected. A size is compared with others as a
number, which other data are not; a place in a sequence and the length of an
array must be whole besides, and a length must leave room for the array.
-/
import ReversePolish.Datum
import ReversePolish.Number.Bytes
import ReversePolish.Number.Quantity

namespace ReversePolish
namespace Datum

/-! ## Order -/

def quantity? : Datum → Option Quantity
  | .truth b => some (.ofWhole b.toInt)
  | .whole n => some (.ofWhole n)
  | .real x => some (.ofFloat x)
  | _ => none

/-- Why two data are not compared by a sign: they are not of one kind. -/
structure OrderError where
  sign : String
  left : Datum
  right : Datum

def OrderError.message (e : OrderError) : String :=
  "'" ++ e.sign ++ "' not supported between instances of '" ++ e.left.typeWord ++ "' and '" ++
    e.right.typeWord ++ "'"

def isBelow (d : Datum) (n : Int) : Except OrderError Bool :=
  match d.quantity? with
  | some x => .ok (x.less (.ofWhole n))
  | none => .error ⟨"<", d, .whole n⟩

def isAtMost (d : Datum) (n : Int) : Except OrderError Bool :=
  match d.quantity? with
  | some x => .ok (x = .ofWhole n || x.less (.ofWhole n))
  | none => .error ⟨"<=", d, .whole n⟩

/-! ## Places -/

inductive PlaceError where
  | notWhole (given : Datum)
  | outOfRange

def PlaceError.message : PlaceError → String
  | .notWhole given => "list indices must be integers or slices, not " ++ given.typeWord
  | .outOfRange => "list index out of range"

/-- A datum as a place in a sequence of the given length, which is counted from its end if it is
negative. A truth value counts as nought or one. -/
def place? (d : Datum) (length : Nat) : Except PlaceError Nat :=
  let within (n : Int) : Except PlaceError Nat :=
    let n := if n < 0 then n + length else n
    if 0 ≤ n ∧ n < length then .ok n.toNat else .error .outOfRange
  match d with
  | .whole n => within n
  | .truth b => within b.toInt
  | d => .error (.notWhole d)

def pick? {α : Type} (d : Datum) (items : List α) : Except PlaceError α :=
  match d.place? items.length with
  | .error cause => .error cause
  | .ok i => match items[i]? with
    | some a => .ok a
    | none => .error .outOfRange

/-! ## Lengths -/

inductive LengthError where
  | notWhole (given : Datum)
  /-- Its places would not all have a number. -/
  | tooManyPlaces
  /-- Its bytes would not all have a number. -/
  | tooManyBytes
  | noRoom (length : Nat)

def bytesOf (length : Nat) : Nat := 8 * length

def LengthError.message : LengthError → String
  | .notWhole given =>
    "expected a sequence of integers or a single integer, got '" ++ given.message ++ "'"
  | .tooManyPlaces => "Maximum allowed dimension exceeded"
  | .tooManyBytes =>
    "array is too big; `arr.size * arr.dtype.itemsize` is larger than the maximum possible size."
  | .noRoom length =>
    "Unable to allocate " ++ Bytes.text (bytesOf length) ++ " for an array with shape (" ++
      toString length ++ ",) and data type float64"

/-- Places and bytes are numbered by the whole numbers up to this one. -/
def greatestNumber : Nat := 2 ^ 63 - 1

/-- How many bytes there is room for in an array where nothing else is said. -/
def room : Nat := 2 ^ 36

/-- Lets a length pass that an array of doubles can have in so much room. -/
def checkLength (room length : Nat) : Except LengthError Nat :=
  if greatestNumber < length then .error .tooManyPlaces
  else if greatestNumber < bytesOf length then .error .tooManyBytes
  else if room < bytesOf length then .error (.noRoom length)
  else .ok length

/-- A datum that is not negative as the length of an array. Truth values are no lengths. -/
def length? (room : Nat) : Datum → Except LengthError Nat
  | .whole n => checkLength room n.toNat
  | d => .error (.notWhole d)

@[simp] theorem isBelow_whole (m n : Int) : (whole m).isBelow n = .ok (decide (m < n)) := by
  simp [isBelow, quantity?]

theorem checkLength_eq_ok {room length : Nat} (numbered : bytesOf length ≤ greatestNumber)
    (fits : bytesOf length ≤ room) : checkLength room length = .ok length := by
  unfold checkLength
  unfold bytesOf at *
  rw [if_neg (by omega), if_neg (by omega), if_neg (by omega)]

end Datum
end ReversePolish

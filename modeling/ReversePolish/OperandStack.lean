/-
The stack of operands: an array of cells of which the first `count` hold the
values, and which is doubled when it is full. Popping and resetting leave the
cells as they are, and a new array holds whatever it is found with; so what
lies above `count` is left over from before, and may be anything
(`withLeftover`). It is written again before it is read.
-/
import ReversePolish.Datum.Size

namespace ReversePolish

structure OperandStack where
  cells : Array Float
  count : Nat
  /-- What lies in the cells of a new array, by their places. No value ever depends on it. -/
  leftover : Nat → Float
  count_le : count ≤ cells.size
  cells_pos : 0 < cells.size

inductive StackError where
  | popEmpty
  | peekEmpty
  deriving DecidableEq, Repr

def StackError.message : StackError → String
  | .popEmpty => "pop from empty operand stack"
  | .peekEmpty => "peek from empty operand stack"

inductive CapacityError where
  /-- It is not compared with a number. -/
  | order (cause : Datum.OrderError)
  | notPositive
  | length (cause : Datum.LengthError)

def CapacityError.message : CapacityError → String
  | .order cause => cause.message
  | .notPositive => "Stack's capacity must be positive"
  | .length cause => cause.message

namespace OperandStack

/-- The capacity of a stack when none is asked for. -/
def defaultCapacity : Nat := 5

theorem defaultCapacity_pos : 0 < defaultCapacity := by decide

def ofCapacity (capacity : Nat) (pos : 0 < capacity) : OperandStack where
  cells := Array.replicate capacity 0.0
  count := 0
  leftover _ := 0.0
  count_le := Nat.zero_le _
  cells_pos := by simpa using pos

def ofDatum? (capacity : Datum) (room : Nat := Datum.room) : Except CapacityError OperandStack :=
  match capacity.isAtMost 0, capacity.length? room with
  | .error cause, _ => .error (.order cause)
  | .ok true, _ => .error .notPositive
  | .ok false, .error cause => .error (.length cause)
  | .ok false, .ok length =>
    if h : 0 < length then .ok (ofCapacity length h) else .error .notPositive

def capacity (s : OperandStack) : Nat := s.cells.size

def isEmpty (s : OperandStack) : Bool := s.count == 0

/-- The values, the oldest first. -/
def toList (s : OperandStack) : List Float := s.cells.toList.take s.count

/-- An array of twice the size. -/
def doubled (cells : Array Float) (leftover : Nat → Float) : Array Float :=
  cells ++ Array.ofFn fun i : Fin cells.size => leftover (cells.size + i)

theorem le_size_doubled {cells : Array Float} {leftover : Nat → Float} {n : Nat}
    (h : n ≤ cells.size) : n ≤ (doubled cells leftover).size := by
  rw [doubled, Array.size_append]
  exact Nat.le_add_right_of_le h

def grow (s : OperandStack) : OperandStack where
  cells := doubled s.cells s.leftover
  count := s.count
  leftover := s.leftover
  count_le := le_size_doubled s.count_le
  cells_pos := le_size_doubled s.cells_pos

theorem le_size_set {cells : Array Float} {n i : Nat} {x : Float} (room : i < cells.size)
    (h : n ≤ cells.size) : n ≤ (cells.set i x).size := by
  rw [Array.size_set]
  exact h

/-- Writes to the cell above the values, which there must be. -/
def place (s : OperandStack) (x : Float) (room : s.count < s.cells.size) : OperandStack where
  cells := s.cells.set s.count x
  count := s.count + 1
  leftover := s.leftover
  count_le := le_size_set room room
  cells_pos := le_size_set room s.cells_pos

theorem grow_room (s : OperandStack) : s.grow.count < s.grow.cells.size := by
  have := s.count_le; have := s.cells_pos; simp [grow, doubled]; omega

def push (s : OperandStack) (x : Float) : OperandStack :=
  if room : s.count < s.cells.size then s.place x room else s.grow.place x s.grow_room

/-- The newest value, which there must be. -/
def peek (s : OperandStack) (some_value : 0 < s.count) : Float :=
  have := s.count_le
  s.cells[s.count - 1]

def drop (s : OperandStack) : OperandStack where
  cells := s.cells
  count := s.count - 1
  leftover := s.leftover
  count_le := Nat.le_trans (Nat.sub_le _ _) s.count_le
  cells_pos := s.cells_pos

def pop? (s : OperandStack) : Option (Float × OperandStack) :=
  if some_value : 0 < s.count then some (s.peek some_value, s.drop) else none

def peek? (s : OperandStack) : Option Float :=
  if some_value : 0 < s.count then some (s.peek some_value) else none

/-- No values, and the same cells. -/
def reset (s : OperandStack) : OperandStack := { s with count := 0, count_le := Nat.zero_le _ }

/-- The same values, with anything else in the cells above them and in those of new arrays. -/
def withLeftover (s : OperandStack) (leftover : Nat → Float) : OperandStack where
  cells := Array.ofFn fun i : Fin s.cells.size => if i < s.count then s.cells[i] else leftover i
  count := s.count
  leftover := leftover
  count_le := by simpa using s.count_le
  cells_pos := by simpa using s.cells_pos

/-! ## The values after each operation -/

@[simp] theorem length_toList (s : OperandStack) : s.toList.length = s.count := by
  have := s.count_le
  simp [toList]; omega

@[simp] theorem toList_reset (s : OperandStack) : s.reset.toList = [] := rfl

theorem toList_grow (s : OperandStack) : s.grow.toList = s.toList := by
  have := s.count_le
  simp only [toList, grow, doubled, Array.toList_append]
  exact List.take_append_of_le_length (by simpa using this)

theorem toList_place (s : OperandStack) (x : Float) (room : s.count < s.cells.size) :
    (s.place x room).toList = s.toList ++ [x] := by
  simp only [toList, place, Array.toList_set]
  rw [List.take_add_one, List.take_set_of_le (Nat.le_refl _)]
  simp [room]

/-- Pushing adds a value at the end, whether the stack grows or not. -/
@[simp] theorem toList_push (s : OperandStack) (x : Float) :
    (s.push x).toList = s.toList ++ [x] := by
  unfold push
  split
  · exact toList_place s x _
  · rw [toList_place, toList_grow]

theorem toList_drop_append_peek (s : OperandStack) (some_value : 0 < s.count) :
    s.drop.toList ++ [s.peek some_value] = s.toList := by
  have := s.count_le
  obtain ⟨n, hn⟩ : ∃ n, s.count = n + 1 := ⟨s.count - 1, by omega⟩
  simp only [toList, drop, peek, hn, Nat.add_sub_cancel]
  rw [List.take_add_one]
  simp [show n < s.cells.size by omega]

theorem pop?_eq_none_iff (s : OperandStack) : s.pop? = none ↔ s.toList = [] := by
  rw [← List.length_eq_zero_iff, length_toList, pop?]
  split
  next h => simp; omega
  next h => simp; omega

/-- Popping takes away the value that comes last. -/
theorem toList_of_pop?_eq_some {s t : OperandStack} {x : Float} (h : s.pop? = some (x, t)) :
    s.toList = t.toList ++ [x] := by
  unfold pop? at h
  split at h
  · cases h; exact (s.toList_drop_append_peek _).symm
  · cases h

/-- Where there is a value, popping takes it away and leaves the values below it. -/
theorem exists_pop? {s : OperandStack} {x : Float} {rest : List Float}
    (h : s.toList.reverse = x :: rest) : ∃ t, s.pop? = some (x, t) ∧ t.toList.reverse = rest := by
  cases hp : s.pop? with
  | none =>
    have hn := s.pop?_eq_none_iff.mp hp
    simp [hn] at h
  | some p =>
    obtain ⟨y, t⟩ := p
    have hs := toList_of_pop?_eq_some hp
    simp only [hs, List.reverse_append, List.reverse_cons, List.reverse_nil, List.nil_append,
      List.singleton_append, List.cons.injEq] at h
    obtain ⟨rfl, hr⟩ := h
    exact ⟨t, rfl, hr⟩

/-- Peeking shows what popping would take away. -/
theorem peek?_eq (s : OperandStack) : s.peek? = s.pop?.map Prod.fst := by
  unfold peek? pop?
  split <;> rfl

/-! ## The capacity after each operation -/

@[simp] theorem capacity_ofCapacity (capacity : Nat) (pos : 0 < capacity) :
    (ofCapacity capacity pos).capacity = capacity := Array.size_replicate

@[simp] theorem capacity_reset (s : OperandStack) : s.reset.capacity = s.capacity := rfl

@[simp] theorem capacity_withLeftover (s : OperandStack) (leftover : Nat → Float) :
    (s.withLeftover leftover).capacity = s.capacity := Array.size_ofFn

/-- Pushing doubles the capacity of a stack that is full, and of no other. -/
theorem capacity_push (s : OperandStack) (x : Float) :
    (s.push x).capacity = if s.count < s.capacity then s.capacity else s.capacity + s.capacity := by
  unfold push capacity
  split
  · simp [place]
  · simp [place, grow, doubled]

theorem capacity_of_pop?_eq_some {s t : OperandStack} {x : Float} (h : s.pop? = some (x, t)) :
    t.capacity = s.capacity := by
  unfold pop? at h
  split at h
  · cases h; rfl
  · cases h

/-! ## Sequences of calls -/

inductive Call where
  | push (x : Float)
  | pop
  | peek
  | size
  | isEmpty
  | reset

inductive Reply where
  | done
  | value (x : Float)
  | size (n : Nat)
  | truth (b : Bool)
  | error (e : StackError)

def call (s : OperandStack) : Call → Reply × OperandStack
  | .push x => (.done, s.push x)
  | .pop => match s.pop? with
    | some (x, s) => (.value x, s)
    | none => (.error .popEmpty, s)
  | .peek => match s.peek? with
    | some x => (.value x, s)
    | none => (.error .peekEmpty, s)
  | .size => (.size s.count, s)
  | .isEmpty => (.truth s.isEmpty, s)
  | .reset => (.done, s.reset)

def calls (s : OperandStack) : List Call → List (Reply × OperandStack)
  | [] => []
  | c :: rest =>
    let answer := s.call c
    answer :: answer.2.calls rest

end OperandStack
end ReversePolish

/-
Scratch buffers for the arguments of one application. A pool keeps one buffer
for each small length, and every request for that length is given the same
one; other requests are given a buffer of their own. Buffers live at addresses
in a heap, so that it is plain when two of them are one: when their addresses
are equal.
-/
import ReversePolish.Datum.Size

namespace ReversePolish

structure ScratchPool where
  /-- All buffers by address; those of the pool come first, and the one at `n` has length
  `n`. -/
  heap : Array (Array Float)
  /-- How many lengths are pooled. -/
  size : Nat
  /-- How many requests the pool has met. -/
  hits : Nat
  /-- How many it has not. -/
  misses : Nat
  /-- What lies in the cells of a buffer of its own before they are written: for each address
  and place. No value ever depends on it. -/
  leftover : Nat → Nat → Float
  /-- How many bytes there is room for in such a buffer. -/
  room : Nat
  size_le : size ≤ heap.size
  length_pooled : ∀ n (h : n < size), heap[n].size = n

inductive PoolSizeError where
  /-- It is not compared with a number. -/
  | order (cause : Datum.OrderError)
  | negative
  /-- Lengths are not counted up to it. -/
  | notWhole (given : Datum)

def PoolSizeError.message : PoolSizeError → String
  | .order cause => cause.message
  | .negative => "pool_size must be a non-negative integer"
  | .notWhole given => "'" ++ given.typeWord ++ "' object cannot be interpreted as an integer"

inductive PoolError where
  /-- A length is not compared with a number. -/
  | order (cause : Datum.OrderError)
  | negative (given : Datum)
  /-- There is no pooled buffer, or no loan, of a number. -/
  | place (cause : Datum.PlaceError)
  | length (cause : Datum.LengthError)
  /-- More is written than a buffer has cells. -/
  | beyond (cells : Nat)

def PoolError.message : PoolError → String
  | .order cause => cause.message
  | .negative given => "Cannot acquire a buffer of negative size " ++ given.message
  | .place cause => cause.message
  | .length cause => cause.message
  | .beyond cells =>
    "index " ++ toString cells ++ " is out of bounds for axis 0 with size " ++ toString cells

namespace ScratchPool

/-- How many lengths are pooled when nothing else is asked for. -/
def defaultSize : Nat := 4

/-- A pool of buffers of the lengths below `size`, all filled with noughts. -/
def ofSize (size : Nat) : ScratchPool where
  heap := Array.ofFn fun n : Fin size => Array.replicate n 0.0
  size := size
  hits := 0
  misses := 0
  leftover _ _ := 0.0
  room := Datum.room
  size_le := by simp
  length_pooled := by simp

/-- A pool of as many lengths as a datum says; a truth value counts as nought or one. -/
def ofDatum? (size : Datum) : Except PoolSizeError ScratchPool :=
  match size.isBelow 0, size with
  | .error cause, _ => .error (.order cause)
  | .ok true, _ => .error .negative
  | .ok false, .whole n => .ok (ofSize n.toNat)
  | .ok false, .truth b => .ok (ofSize b.toNat)
  | .ok false, size => .error (.notWhole size)

/-- Gives out a buffer of length `n`, by its address. -/
def acquire (p : ScratchPool) (n : Nat) : Nat × ScratchPool :=
  if n < p.size then (n, { p with hits := p.hits + 1 })
  else (p.heap.size, { p with
    heap := p.heap.push (Array.ofFn fun i : Fin n => p.leftover p.heap.size i)
    misses := p.misses + 1
    size_le := by have := p.size_le; simp; omega
    length_pooled := by
      intro m h
      have := p.size_le
      rw [Array.getElem_push_lt (by omega)]
      exact p.length_pooled m h })

/-- Gives out a buffer of as many cells as a datum says. Whether the pool meets the request is a
matter of order alone, and it counts the request even if there is no buffer for it then. -/
def acquire? (p : ScratchPool) (length : Datum) : ScratchPool × Except PoolError Nat :=
  match length.isBelow 0, length.isBelow p.size with
  | .error cause, _ | _, .error cause => (p, .error (.order cause))
  | .ok true, _ => (p, .error (.negative length))
  | .ok false, .ok true => match length.place? p.size with
    | .ok n => ((p.acquire n).2, .ok (p.acquire n).1)
    | .error cause => ({ p with hits := p.hits + 1 }, .error (.place cause))
  | .ok false, .ok false => match length.length? p.room with
    | .ok n => ((p.acquire n).2, .ok (p.acquire n).1)
    | .error cause => ({ p with misses := p.misses + 1 }, .error (.length cause))

def contents (p : ScratchPool) (address : Nat) : List Float :=
  (p.heap[address]?.getD #[]).toList

/-- Writes one cell of the buffer at an address; beyond its end nothing is written. -/
def write (p : ScratchPool) (address i : Nat) (x : Float) : ScratchPool :=
  { p with
    heap := p.heap.modify address (·.setIfInBounds i x)
    size_le := by simpa using p.size_le
    length_pooled := by
      intro n h
      rw [Array.getElem_modify]
      split <;> simp [p.length_pooled n h] }

def withLeftover (p : ScratchPool) (leftover : Nat → Nat → Float) : ScratchPool :=
  { p with leftover := leftover }

def clearStats (p : ScratchPool) : ScratchPool := { p with hits := 0, misses := 0 }

/-! ## What the buffers hold -/

@[simp] theorem length_contents_acquire (p : ScratchPool) (n : Nat) :
    ((p.acquire n).2.contents (p.acquire n).1).length = n := by
  unfold acquire
  split
  next h =>
    have hn : n < p.heap.size := Nat.lt_of_lt_of_le h p.size_le
    simp [contents, Array.getElem?_eq_getElem hn, p.length_pooled n h]
  next => simp [contents]

/-- A negative length is refused, and nothing is counted. -/
theorem acquire?_negative (p : ScratchPool) {n : Int} (h : n < 0) :
    p.acquire? (.whole n) = (p, .error (.negative (.whole n))) := by
  simp [acquire?, h]

@[simp] theorem contents_write_self (p : ScratchPool) (address i : Nat) (x : Float) :
    (p.write address i x).contents address = (p.contents address).set i x := by
  simp only [contents, write, Array.getElem?_modify, if_true]
  cases p.heap[address]? with
  | none => simp
  | some buffer => simp

theorem contents_write_other (p : ScratchPool) {address other : Nat} (hne : other ≠ address)
    (i : Nat) (x : Float) : (p.write address i x).contents other = p.contents other := by
  simp [contents, write, Array.getElem?_modify, Ne.symm hne]

/-! ## Sequences of requests -/

/-- A pool with the buffers that were given out, in order. -/
structure Lending where
  pool : ScratchPool
  /-- The address of each. -/
  given : List Nat

/-- One request. Buffers are referred to by the number of their loan. -/
inductive Request where
  | acquire (length : Datum)
  /-- Overwrites the first cells. -/
  | write (loan : Datum) (values : List Float)
  | read (loan : Datum)
  | clearStats

inductive Reply where
  | done
  /-- A buffer with the first earlier loan of the same one. -/
  | buffer (contents : List Float) (sameAs : Option Nat)
  | contents (values : List Float)
  | error (e : PoolError)

def writeAll (p : ScratchPool) (address : Nat) (values : List Float) : ScratchPool :=
  (values.zipIdx).foldl (fun p (x, i) => p.write address i x) p

namespace Lending

def start (p : ScratchPool) : Lending := ⟨p, []⟩

def address? (l : Lending) (loan : Datum) : Except PoolError Nat :=
  match loan.pick? l.given with
  | .ok address => .ok address
  | .error cause => .error (.place cause)

def request (l : Lending) : Request → Reply × Lending
  | .acquire length => match l.pool.acquire? length with
    | (pool, .ok address) =>
      (.buffer (pool.contents address) (l.given.findIdx? (· == address)),
        ⟨pool, l.given ++ [address]⟩)
    | (pool, .error e) => (.error e, { l with pool := pool })
  | .write loan values => match l.address? loan with
    | .ok address =>
      let cells := (l.pool.contents address).length
      (if cells < values.length then .error (.beyond cells) else .done,
        { l with pool := l.pool.writeAll address values })
    | .error e => (.error e, l)
  | .read loan => match l.address? loan with
    | .ok address => (.contents (l.pool.contents address), l)
    | .error e => (.error e, l)
  | .clearStats => (.done, { l with pool := l.pool.clearStats })

/-- The requests one after the other: each reply with the state after it. -/
def requests (l : Lending) : List Request → List (Reply × Lending)
  | [] => []
  | r :: rest =>
    let answer := l.request r
    answer :: answer.2.requests rest

end Lending
end ScratchPool
end ReversePolish

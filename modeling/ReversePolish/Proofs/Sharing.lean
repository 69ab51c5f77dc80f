/-
The loans of a pool. Whatever was acquired, written, read and cleared before,
two loans are of one buffer exactly if the same pooled length was asked for
both times, and what is written through one of them is seen through these and
no others (`Lending.disciplined_after`). The counters tell how many requests
there were for pooled lengths and for others since they were last cleared. A
request is counted before its buffer is made, so it is counted even if there
is no room for the buffer.
-/
import Mathlib.Data.List.DropRight
import Mathlib.Data.List.Forall2
import Mathlib.Data.List.Induction
import ReversePolish.Proofs.Application

namespace ReversePolish

/-- The number of cells that a datum asks for, if it can ask for any. -/
def Datum.amount? : Datum → Option Nat
  | .whole n => some n.toNat
  | .truth b => some b.toNat
  | _ => none

namespace ScratchPool

/-! ## One acquisition -/

/-- Is a length one of so many pooled ones, or one of the others? What is negative or no number is
neither. -/
def pooled? (size : Nat) (length : Datum) : Option Bool :=
  match length.isBelow 0, length.isBelow size with
  | .ok false, .ok pooled => some pooled
  | _, _ => none

/-- What may come of a request for so many cells: a loan of a pooled buffer or of a new one, or
none, and then it may be counted nevertheless. -/
inductive Acquires (p : ScratchPool) (length : Datum) : ScratchPool × Except PoolError Nat → Prop
  | pooled (n : Nat) (amount : length.amount? = some n) (below : n < p.size)
    (sort : pooled? p.size length = some true) :
    Acquires p length ({ p with hits := p.hits + 1 }, .ok n)
  | own (n : Nat) (amount : length.amount? = some n) (beyond : p.size ≤ n)
    (sort : pooled? p.size length = some false) :
    Acquires p length ((p.acquire n).2, .ok p.heap.size)
  | refused (cause : PoolError) (sort : pooled? p.size length = none) :
    Acquires p length (p, .error cause)
  | noPlace (cause : PoolError) (sort : pooled? p.size length = some true) :
    Acquires p length ({ p with hits := p.hits + 1 }, .error cause)
  | noBuffer (cause : PoolError) (sort : pooled? p.size length = some false) :
    Acquires p length ({ p with misses := p.misses + 1 }, .error cause)

theorem contents_acquire {p : ScratchPool} {n address : Nat} (old : address < p.heap.size) :
    (p.acquire n).2.contents address = p.contents address := by
  unfold acquire
  split
  · rfl
  · simp [contents, Array.getElem?_push_lt old, old]

theorem amount_of_place? {length : Datum} {size n : Nat}
    (notNegative : length.isBelow 0 = .ok false)
    (place : length.place? size = .ok n) : length.amount? = some n ∧ n < size := by
  have within {m : Int} (nonneg : ¬ m < 0)
      (h : (Datum.whole m).place? size = .ok n) : m.toNat = n ∧ n < size := by
    simp only [Datum.place?, nonneg, if_false] at h
    split at h
    next inside =>
      cases h
      omega
    next => cases h
  cases length with
  | whole m =>
    have nonneg : ¬ m < 0 := by simpa using notNegative
    obtain ⟨same, below⟩ := within nonneg place
    exact ⟨congrArg some same, below⟩
  | truth b =>
    cases b with
    | false =>
      obtain ⟨same, below⟩ := within (m := 0) (by decide) place
      exact ⟨congrArg some same, below⟩
    | true =>
      obtain ⟨same, below⟩ := within (m := 1) (by decide) place
      exact ⟨congrArg some same, below⟩
  | null | real x | text s | list items | record fields => cases place

theorem amount_of_length? {length : Datum} {size room n : Nat}
    (notBelow : length.isBelow size = .ok false) (made : length.length? room = .ok n) :
    length.amount? = some n ∧ size ≤ n := by
  cases length with
  | whole m =>
    have beyond : ¬ m < size := by simpa using notBelow
    have same : n = m.toNat := by
      simp only [Datum.length?, Datum.checkLength] at made
      split at made
      · cases made
      · split at made
        · cases made
        · split at made
          · cases made
          · cases made
            rfl
    exact ⟨congrArg some same.symm, by omega⟩
  | truth b | null | real x | text s | list items | record fields => cases made

/-- **Every request ends in one of these ways.** -/
theorem acquires (p : ScratchPool) (length : Datum) : Acquires p length (p.acquire? length) := by
  cases sign : length.isBelow 0 with
  | error cause =>
    simp only [acquire?, sign]
    exact .refused _ (by simp only [pooled?, sign])
  | ok negative =>
    cases order : length.isBelow p.size with
    | error cause =>
      simp only [acquire?, sign, order]
      exact .refused _ (by simp only [pooled?, sign, order])
    | ok below =>
      simp only [acquire?, sign, order]
      cases negative with
      | true => exact .refused _ (by simp only [pooled?, sign])
      | false =>
        have sort : pooled? p.size length = some below := by simp only [pooled?, sign, order]
        cases below with
        | true =>
          cases place : length.place? p.size with
          | error cause => exact .noPlace _ sort
          | ok n =>
            obtain ⟨amount, less⟩ := amount_of_place? sign place
            simp only [acquire_pooled less]
            exact .pooled n amount less sort
        | false =>
          cases made : length.length? p.room with
          | error cause => exact .noBuffer _ sort
          | ok n =>
            obtain ⟨amount, beyond⟩ := amount_of_length? order made
            simp only [(acquire_own beyond).1]
            exact .own n amount beyond sort

/-! ## Writing -/

/-- Cells of which the first ones are overwritten, as far as there are any. -/
def overwritten : List Float → List Float → List Float
  | _ :: cells, x :: values => x :: overwritten cells values
  | cells, _ => cells

@[simp] theorem overwritten_nil (cells : List Float) : overwritten cells [] = cells := by
  cases cells <;> rfl

theorem length_overwritten (cells values : List Float) :
    (overwritten cells values).length = cells.length := by
  induction cells generalizing values with
  | nil => rfl
  | cons y cells ih =>
    cases values with
    | nil => rfl
    | cons x values => exact congrArg Nat.succ (ih values)

/-- What no write to a buffer changes in a pool: all other buffers, and what it counts. -/
structure WritesTo (address : Nat) (p q : ScratchPool) : Prop where
  size : q.size = p.size
  room : q.room = p.room
  heap : q.heap.size = p.heap.size
  hits : q.hits = p.hits
  misses : q.misses = p.misses
  others : ∀ other, other ≠ address → q.contents other = p.contents other

theorem writeAll_from (address : Nat) (values : List Float) :
    ∀ (p : ScratchPool) (k : Nat),
      let q := (values.zipIdx k).foldl (fun p (x, i) => p.write address i x) p
      WritesTo address p q ∧ q.contents address =
        (p.contents address).take k ++ overwritten ((p.contents address).drop k) values := by
  induction values with
  | nil => exact fun p k => ⟨⟨rfl, rfl, rfl, rfl, rfl, fun _ _ => rfl⟩, by simp⟩
  | cons x rest ih =>
    intro p k
    obtain ⟨writes, contents⟩ := ih (p.write address k x) (k + 1)
    have one : WritesTo address p (p.write address k x) :=
      ⟨rfl, rfl, Array.size_modify, rfl, rfl, fun other ne => p.contents_write_other ne k x⟩
    refine ⟨⟨writes.size.trans one.size, writes.room.trans one.room, writes.heap.trans one.heap,
      writes.hits.trans one.hits, writes.misses.trans one.misses,
      fun other ne => (writes.others other ne).trans (one.others other ne)⟩, contents.trans ?_⟩
    rw [contents_write_self]
    rcases Nat.lt_or_ge k (p.contents address).length with inside | outside
    · rw [List.drop_eq_getElem_cons inside, overwritten, List.drop_set_of_lt (Nat.lt_succ_self k),
        List.take_add_one, List.take_set_of_le (Nat.le_refl k), List.append_assoc]
      simp [inside]
    · rw [List.set_eq_of_length_le outside, List.drop_eq_nil_of_le outside,
        List.drop_eq_nil_of_le (Nat.le_succ_of_le outside), List.take_of_length_le outside,
        List.take_of_length_le (Nat.le_succ_of_le outside)]
      rfl

/-- **Writing overwrites the first cells of one buffer**, and nothing else. -/
theorem contents_writeAll (p : ScratchPool) (address : Nat) (values : List Float) :
    WritesTo address p (p.writeAll address values) ∧
      (p.writeAll address values).contents address = overwritten (p.contents address) values := by
  obtain ⟨writes, contents⟩ := writeAll_from address values p 0
  exact ⟨writes, contents⟩

/-! ## Requests -/

def Request.clears : Request → Bool
  | .clearStats => true
  | _ => false

/-- Is it one for a pooled length, or for another? -/
def Request.pooled? (size : Nat) : Request → Option Bool
  | .acquire length => ScratchPool.pooled? size length
  | _ => none

/-- The length that was asked for with success. -/
def Request.lent? : Request → Reply → Option Nat
  | .acquire length, .buffer .. => length.amount?
  | _, _ => none

/-- The requests since the counters were last cleared. -/
def sinceClear (script : List Request) : List Request := script.rtakeWhile fun r => !r.clears

namespace Lending

def after (l : Lending) (script : List Request) : Lending :=
  script.foldl (fun l r => (l.request r).2) l

def asked (l : Lending) (script : List Request) : List Nat :=
  (script.zip (l.requests script)).filterMap fun (r, reply, _) => r.lent? reply

theorem after_concat (l : Lending) (script : List Request) (r : Request) :
    l.after (script ++ [r]) = ((l.after script).request r).2 := List.foldl_concat ..

theorem length_requests (l : Lending) (script : List Request) :
    (l.requests script).length = script.length := by
  induction script generalizing l with
  | nil => rfl
  | cons r rest ih => exact congrArg Nat.succ (ih _)

theorem requests_concat (l : Lending) (script : List Request) (r : Request) :
    l.requests (script ++ [r]) = l.requests script ++ [(l.after script).request r] := by
  induction script generalizing l with
  | nil => rfl
  | cons first rest ih => exact congrArg (l.request first :: ·) (ih _)

theorem asked_concat (l : Lending) (script : List Request) (r : Request) :
    l.asked (script ++ [r]) =
      l.asked script ++ (r.lent? ((l.after script).request r).1).toList := by
  rw [asked, requests_concat, List.zip_append (l.length_requests script).symm,
    List.filterMap_append]
  rfl

/-! ## Loans -/

/-- A buffer is lent to who asked for so many cells: it has that many; if such lengths are pooled it
is the one buffer that is kept for the length, and if not it is none of these. -/
structure Loan (p : ScratchPool) (n address : Nat) : Prop where
  length : (p.contents address).length = n
  below : address < p.heap.size
  pooled : n < p.size → address = n
  own : p.size ≤ n → p.size ≤ address

/-- The buffers that were given out are those of loans of such lengths, and no buffer was given out
twice but those of pooled lengths. -/
structure Lent (size room : Nat) (ns : List Nat) (l : Lending) : Prop where
  sized : l.pool.size = size
  roomed : l.pool.room = room
  loans : List.Forall₂ (Loan l.pool) ns l.given
  once : l.given.Pairwise fun a b => a = b → a < size

/-- Two loans are one, or the same pooled length was asked for. -/
def Together (size : Nat) (ns : List Nat) (i j : Nat) : Prop :=
  i = j ∨ ∃ n < size, ns[i]? = some n ∧ ns[j]? = some n

/-- What a request may do to the buffers that there are: they keep their lengths, and there may be
new ones. -/
structure Extends (p q : ScratchPool) : Prop where
  size : q.size = p.size
  room : q.room = p.room
  heap : p.heap.size ≤ q.heap.size
  lengths : ∀ address < p.heap.size, (q.contents address).length = (p.contents address).length

theorem Extends.of_heap {p q : ScratchPool} (size : q.size = p.size) (room : q.room = p.room)
    (heap : q.heap = p.heap) : Extends p q :=
  ⟨size, room, Nat.le_of_eq (congrArg Array.size heap.symm), fun address _ => by
    simp only [contents, heap]⟩

section
variable {p q : ScratchPool} {n address : Nat}

theorem Loan.extends (h : Loan p n address) (more : Extends p q) : Loan q n address where
  length := (more.lengths address h.below).trans h.length
  below := Nat.lt_of_lt_of_le h.below more.heap
  pooled := by rw [more.size]; exact h.pooled
  own := by rw [more.size]; exact h.own

theorem Loan.kept (below : n < p.size) : Loan p n n where
  length := by
    have acquired := p.length_contents_acquire n
    rw [acquire_pooled below] at acquired
    exact acquired
  below := Nat.lt_of_lt_of_le below p.size_le
  pooled := fun _ => rfl
  own := id

theorem Loan.made (beyond : p.size ≤ n) : Loan (p.acquire n).2 n p.heap.size where
  length := by
    have acquired := p.length_contents_acquire n
    rw [(acquire_own beyond).1] at acquired
    exact acquired
  below := by rw [(acquire_own beyond).2.1]; exact Nat.lt_succ_self _
  pooled := by rw [size_acquire]; exact fun less => absurd less (Nat.not_lt.mpr beyond)
  own := by rw [size_acquire]; exact fun _ => p.size_le

end

section
variable {size room : Nat} {ns : List Nat} {l : Lending}

theorem Lent.loan (h : Lent size room ns l) {i address : Nat} (given : l.given[i]? = some address) :
    ∃ n, ns[i]? = some n ∧ Loan l.pool n address := by
  obtain ⟨inside, rfl⟩ := List.getElem?_eq_some_iff.mp given
  obtain ⟨lengths, loans⟩ := List.forall₂_iff_get.mp h.loans
  have asked : i < ns.length := lengths ▸ inside
  exact ⟨ns[i], List.getElem?_eq_getElem asked, loans i asked inside⟩

theorem Lent.extends (h : Lent size room ns l) {q : ScratchPool} (more : Extends l.pool q) :
    Lent size room ns { l with pool := q } :=
  ⟨more.size.trans h.sized, more.room.trans h.roomed,
    h.loans.imp fun _ _ loan => loan.extends more, h.once⟩

theorem Lent.lend (h : Lent size room ns l) {q : ScratchPool} {n address : Nat}
    (more : Extends l.pool q) (loan : Loan q n address)
    (fresh : address < size ∨ l.pool.heap.size ≤ address) :
    Lent size room (ns ++ [n]) ⟨q, l.given ++ [address]⟩ := by
  refine ⟨more.size.trans h.sized, more.room.trans h.roomed,
    List.rel_append (h.loans.imp fun _ _ loan => loan.extends more) (.cons loan .nil), ?_⟩
  refine List.pairwise_append.mpr ⟨h.once, List.pairwise_singleton .., fun old ho new hn same => ?_⟩
  cases List.mem_singleton.mp hn
  cases same
  rcases fresh with pooled | unused
  · exact pooled
  · obtain ⟨i, given⟩ := List.mem_iff_getElem?.mp ho
    obtain ⟨m, -, before⟩ := h.loan given
    exact absurd before.below (Nat.not_lt.mpr unused)

/-- **One request** makes at most a loan, and keeps those that there are. -/
theorem Lent.request (h : Lent size room ns l) (r : Request) :
    Lent size room (ns ++ (r.lent? (l.request r).1).toList) (l.request r).2 := by
  cases r with
  | acquire length =>
    have outcome := l.pool.acquires length
    simp only [Lending.request]
    generalize l.pool.acquire? length = acquired at outcome ⊢
    cases outcome with
    | pooled n amount below sort =>
      simp only [Request.lent?, amount, Option.toList_some]
      exact h.lend (.of_heap rfl rfl rfl) (.kept below) (.inl (h.sized ▸ below))
    | own n amount beyond sort =>
      simp only [Request.lent?, amount, Option.toList_some]
      -- Its address is one past those of all buffers, so nobody was given it before.
      refine h.lend ⟨size_acquire .., room_acquire .., ?_, fun address old => ?_⟩ (.made beyond)
        (.inr (Nat.le_refl _))
      · rw [(acquire_own beyond).2.1]
        exact Nat.le_succ _
      · rw [contents_acquire old]
    | refused | noPlace | noBuffer =>
      simp only [Request.lent?, Option.toList_none, List.append_nil]
      exact h.extends (.of_heap rfl rfl rfl)
  | write loan values =>
    simp only [Lending.request, Request.lent?, Option.toList_none, List.append_nil]
    cases l.address? loan with
    | error cause => exact h
    | ok address =>
      obtain ⟨writes, contents⟩ := l.pool.contents_writeAll address values
      refine h.extends ⟨writes.size, writes.room, Nat.le_of_eq writes.heap.symm, fun other _ => ?_⟩
      by_cases same : other = address
      · rw [same, contents, length_overwritten]
      · rw [writes.others other same]
  | read loan =>
    simp only [Lending.request, Request.lent?, Option.toList_none, List.append_nil]
    cases l.address? loan <;> exact h
  | clearStats =>
    simp only [Lending.request, Request.lent?, Option.toList_none, List.append_nil]
    exact h.extends (.of_heap rfl rfl rfl)

theorem Lent.lt_of_twice (h : Lent size room ns l) {i j address : Nat} (twice : i ≠ j)
    (first : l.given[i]? = some address) (second : l.given[j]? = some address) :
    address < size := by
  obtain ⟨inside, rfl⟩ := List.getElem?_eq_some_iff.mp first
  obtain ⟨inside', same⟩ := List.getElem?_eq_some_iff.mp second
  rcases Nat.lt_or_gt_of_ne twice with before | after
  · exact List.pairwise_iff_getElem.mp h.once i j inside inside' before same.symm
  · rw [← same]
    exact List.pairwise_iff_getElem.mp h.once j i inside' inside after same

/-- **Two loans are of one buffer exactly if they are one loan or of one pooled length.** -/
theorem Lent.same_iff (h : Lent size room ns l) {i j a b : Nat} (first : l.given[i]? = some a)
    (second : l.given[j]? = some b) : a = b ↔ Together size ns i j := by
  obtain ⟨n, asked, loan⟩ := h.loan first
  obtain ⟨m, asked', loan'⟩ := h.loan second
  constructor
  · rintro rfl
    by_cases one : i = j
    · exact .inl one
    · -- Only a pooled buffer is given out twice, and it is that of its length.
      have pooled := h.lt_of_twice one first second
      have length {k : Nat} (loan : Loan l.pool k a) : a = k := by
        refine loan.pooled (Nat.lt_of_not_le fun beyond => ?_)
        exact absurd (loan.own beyond) (Nat.not_le.mpr (h.sized ▸ pooled))
      refine .inr ⟨a, pooled, ?_, ?_⟩
      · rw [asked, ← length loan]
      · rw [asked', ← length loan']
  · rintro (rfl | ⟨k, pooled, ask, ask'⟩)
    · exact Option.some_inj.mp (first.symm.trans second)
    · cases asked.symm.trans ask
      cases asked'.symm.trans ask'
      rw [loan.pooled (h.sized ▸ pooled), loan'.pooled (h.sized ▸ pooled)]

end

theorem lent_after (p : ScratchPool) (script : List Request) :
    Lent p.size p.room ((start p).asked script) ((start p).after script) := by
  induction script using List.reverseRecOn with
  | nil => exact ⟨rfl, rfl, .nil, .nil⟩
  | append_singleton script r ih =>
    rw [asked_concat, after_concat]
    exact ih.request r

/-! ## Counters -/

/-- **One request** is counted by its length alone. -/
theorem counted_request (l : Lending) (r : Request) :
    (l.request r).2.pool.hits = (if r.clears then 0 else
      l.pool.hits + if r.pooled? l.pool.size = some true then 1 else 0) ∧
    (l.request r).2.pool.misses = (if r.clears then 0 else
      l.pool.misses + if r.pooled? l.pool.size = some false then 1 else 0) := by
  cases r with
  | acquire length =>
    have outcome := l.pool.acquires length
    simp only [Lending.request]
    generalize l.pool.acquire? length = acquired at outcome ⊢
    cases outcome with
    | pooled n amount below sort => simp [Request.clears, Request.pooled?, sort]
    | own n amount beyond sort =>
      simp [Request.clears, Request.pooled?, sort, acquire_own beyond]
    | refused cause sort => simp [Request.clears, Request.pooled?, sort]
    | noPlace cause sort => simp [Request.clears, Request.pooled?, sort]
    | noBuffer cause sort => simp [Request.clears, Request.pooled?, sort]
  | write loan values =>
    simp only [Lending.request]
    cases l.address? loan with
    | error cause => exact ⟨rfl, rfl⟩
    | ok address =>
      obtain ⟨writes, -⟩ := l.pool.contents_writeAll address values
      exact ⟨writes.hits, writes.misses⟩
  | read loan =>
    simp only [Lending.request]
    cases l.address? loan <;> exact ⟨rfl, rfl⟩
  | clearStats => exact ⟨rfl, rfl⟩

theorem counted_after {p : ScratchPool} (noHits : p.hits = 0) (noMisses : p.misses = 0)
    (script : List Request) :
    let l := (start p).after script
    l.pool.hits = (sinceClear script).countP (fun r => r.pooled? p.size = some true) ∧
      l.pool.misses = (sinceClear script).countP (fun r => r.pooled? p.size = some false) := by
  induction script using List.reverseRecOn with
  | nil => exact ⟨noHits, noMisses⟩
  | append_singleton script r ih =>
    obtain ⟨hits, misses⟩ := counted_request ((start p).after script) r
    rw [(lent_after p script).sized] at hits misses
    simp only [after_concat, hits, misses, ih.1, ih.2]
    cases clears : r.clears with
    | true => simp [sinceClear, clears]
    | false => simp [sinceClear, clears, List.countP_append, List.countP_singleton]

/-! ## What a request does -/

theorem findIdx?_given {p : ScratchPool} {ns given : List Nat} {n : Nat} (below : n < p.size)
    (loans : List.Forall₂ (Loan p) ns given) :
    given.findIdx? (· == n) = ns.findIdx? (· == n) := by
  induction loans with
  | nil => rfl
  | @cons m address _ _ loan _ ih =>
    have same : (address == n) = (m == n) := by
      rcases Nat.lt_or_ge m p.size with pooled | own
      · rw [loan.pooled pooled]
      · have far := loan.own own
        rw [beq_eq_false_iff_ne.mpr (by omega), beq_eq_false_iff_ne.mpr (by omega)]
    rw [List.findIdx?_cons, List.findIdx?_cons, same, ih]

section
variable {size room : Nat} {ns : List Nat} {l : Lending}

/-- A buffer is lent for every pooled length, and for every other one that an array can have. -/
theorem Lent.request_whole (h : Lent size room ns l) {n : Nat}
    (possible : n < size ∨ ∃ m, Datum.checkLength room n = .ok m) :
    ∃ cells, cells.length = n ∧ (l.request (.acquire (.whole n))).1 =
      .buffer cells (if n < size then ns.findIdx? (· == n) else none) := by
  have outcome := l.pool.acquires (.whole n)
  have refused (cause : PoolError) : (l.pool.acquire? (.whole n)).2 ≠ .error cause := by
    have sign : ¬ (n : Int) < 0 := by omega
    by_cases pooled : n < l.pool.size
    · simp [acquire?, Datum.place?, sign, pooled]
    · obtain ⟨m, made⟩ := possible.resolve_left (h.sized ▸ pooled)
      rw [← h.roomed] at made
      simp [acquire?, Datum.length?, sign, pooled, made]
  simp only [Lending.request]
  generalize l.pool.acquire? (.whole n) = acquired at outcome refused ⊢
  cases outcome with
  | pooled m amount below sort =>
    cases amount
    have first := findIdx?_given below h.loans
    refine ⟨_, (Loan.kept below).length, ?_⟩
    rw [if_pos (h.sized ▸ below)]
    exact congrArg _ first
  | own m amount beyond sort =>
    cases amount
    have new : l.given.findIdx? (· == l.pool.heap.size) = none := by
      refine List.findIdx?_eq_none_iff.mpr fun address old => ?_
      obtain ⟨i, given⟩ := List.mem_iff_getElem?.mp old
      obtain ⟨k, -, loan⟩ := h.loan given
      exact beq_eq_false_iff_ne.mpr (Nat.ne_of_lt loan.below)
    refine ⟨_, (Loan.made beyond).length, ?_⟩
    rw [if_neg (by rw [← h.sized]; exact Nat.not_lt.mpr beyond)]
    exact congrArg _ new
  | refused cause | noPlace cause | noBuffer cause => exact absurd rfl (refused cause)

theorem writesTo_request {loan : Datum} {i address : Nat} (values : List Float)
    (place : loan.place? l.given.length = .ok i) (given : l.given[i]? = some address) :
    (l.request (.write loan values)).2.given = l.given ∧
      WritesTo address l.pool (l.request (.write loan values)).2.pool ∧
      (l.request (.write loan values)).2.pool.contents address =
        overwritten (l.pool.contents address) values := by
  have found : l.address? loan = .ok address := by
    simp only [address?, Datum.pick?, place, given]
  simp only [request, found]
  exact ⟨trivial, l.pool.contents_writeAll address values⟩

end

theorem contents_request (l : Lending) {r : Request}
    (noWrite : ∀ loan values, r ≠ .write loan values) {address : Nat}
    (old : address < l.pool.heap.size) :
    (l.request r).2.pool.contents address = l.pool.contents address := by
  cases r with
  | acquire length =>
    have outcome := l.pool.acquires length
    simp only [request]
    generalize l.pool.acquire? length = acquired at outcome ⊢
    cases outcome with
    | own n => exact contents_acquire old
    | pooled | refused | noPlace | noBuffer => rfl
  | write loan values => exact absurd rfl (noWrite loan values)
  | read loan =>
    simp only [request]
    cases l.address? loan <;> rfl
  | clearStats => rfl

/-! ## The discipline -/

/-- How loans of such lengths, from a pool of so many, share buffers, where there is so much room
for others. -/
structure Disciplined (size room : Nat) (ns : List Nat) (l : Lending) : Prop where
  /-- Every loan is of a buffer of as many cells as were asked for. -/
  lengths : List.Forall₂ (fun n address => (l.pool.contents address).length = n) ns l.given
  /-- Two loans are of one buffer exactly if they are one or of one pooled length. -/
  same : ∀ {i j a b : Nat}, l.given[i]? = some a → l.given[j]? = some b →
    (a = b ↔ Together size ns i j)
  /-- A write is seen through the loans of the same buffer, and through no other. -/
  seen : ∀ {loan : Datum} {i j a b : Nat} (values : List Float),
    loan.place? l.given.length = .ok i → l.given[i]? = some a → l.given[j]? = some b →
    (Together size ns i j → (l.request (.write loan values)).2.pool.contents b =
      overwritten (l.pool.contents b) values) ∧
    (¬ Together size ns i j → (l.request (.write loan values)).2.pool.contents b =
      l.pool.contents b)
  /-- It changes no other buffer, given out or not. -/
  others : ∀ {loan : Datum} {i a b : Nat} (values : List Float),
    loan.place? l.given.length = .ok i → l.given[i]? = some a → b ≠ a →
    (l.request (.write loan values)).2.pool.contents b = l.pool.contents b
  /-- Nor does anything but a write. -/
  kept : ∀ {r : Request} {a : Nat}, (∀ loan values, r ≠ .write loan values) →
    a < l.pool.heap.size → (l.request r).2.pool.contents a = l.pool.contents a
  /-- A buffer is lent for every length that is pooled or that an array can have: if it is pooled,
  the one that was lent for it before. -/
  lends : ∀ {n : Nat}, (n < size ∨ ∃ m, Datum.checkLength room n = .ok m) →
    ∃ cells, cells.length = n ∧ (l.request (.acquire (.whole n))).1 =
      .buffer cells (if n < size then ns.findIdx? (· == n) else none)
  /-- For a negative one none is, and all stays as it is. -/
  negative : ∀ {n : Int}, n < 0 →
    l.request (.acquire (.whole n)) = (.error (.negative (.whole n)), l)

theorem Lent.disciplined {size room : Nat} {ns : List Nat} {l : Lending} (h : Lent size room ns l) :
    Disciplined size room ns l where
  lengths := h.loans.imp fun _ _ loan => loan.length
  same := h.same_iff
  seen := by
    intro loan i j a b values place first second
    obtain ⟨-, writes, contents⟩ := writesTo_request values place first
    constructor
    · intro together
      cases (h.same_iff first second).mpr together
      exact contents
    · intro apart
      exact writes.others b fun one => apart ((h.same_iff first second).mp one.symm)
  others := by
    intro loan i a b values place given ne
    exact (writesTo_request values place given).2.1.others b ne
  kept := fun noWrite old => contents_request l noWrite old
  lends := h.request_whole
  negative := by
    intro n negative
    simp only [Lending.request, l.pool.acquire?_negative negative]

/-- **Buffers are shared exactly where lengths are pooled.** From a new pool of any size, with any
room beside it, after any requests, loans share buffers as `Disciplined` says. The counters are the
numbers of requests for pooled lengths and for others since they were last cleared, whether a
buffer was lent or none. -/
theorem disciplined_after (size room : Nat) (cells : Nat → Nat → Float) (script : List Request) :
    let first := start { ofSize size with leftover := cells, room := room }
    let l := first.after script
    Disciplined size room (first.asked script) l ∧
      l.pool.hits = (sinceClear script).countP (fun r => r.pooled? size = some true) ∧
      l.pool.misses = (sinceClear script).countP (fun r => r.pooled? size = some false) :=
  ⟨(lent_after { ofSize size with leftover := cells, room := room } script).disciplined,
    counted_after rfl rfl script⟩

def repeated : List Request :=
  [.acquire (.whole 1), .acquire (.whole 2), .acquire (.whole 1), .acquire (.whole 2)]

theorem disciplined_after_repeated :
    let l := (start (ofSize 2)).after repeated
    l.given = [1, 2, 1, 3] ∧ l.pool.hits = 2 ∧ l.pool.misses = 2 ∧
      (l.request (.write (.whole 2) [5.0])).2.pool.contents 1 =
        overwritten (l.pool.contents 1) [5.0] := by
  obtain ⟨disciplined, hits, misses⟩ :
      Disciplined 2 Datum.room ((start (ofSize 2)).asked repeated)
          ((start (ofSize 2)).after repeated) ∧
        _ ∧ _ := disciplined_after 2 Datum.room (ofSize 2).leftover repeated
  have given : ((start (ofSize 2)).after repeated).given = [1, 2, 1, 3] := by
    simp [repeated, after, request, start, acquire?, ofSize, Datum.length?, Datum.checkLength,
      Datum.place?, Datum.greatestNumber, Datum.bytesOf, Datum.room, acquire]
  have asked : (start (ofSize 2)).asked repeated = [1, 2, 1, 2] := by
    simp [repeated, asked, requests, request, start, acquire?, ofSize, Datum.length?,
      Datum.checkLength, Datum.place?, Datum.greatestNumber, Datum.bytesOf, Datum.room, acquire,
      Request.lent?, Datum.amount?]
  have place : (Datum.whole 2).place? ((start (ofSize 2)).after repeated).given.length = .ok 2 := by
    rw [given]
    rfl
  refine ⟨given, ?_, ?_, ?_⟩
  · refine hits.trans ?_
    simp [repeated, sinceClear, List.rtakeWhile, Request.clears, Request.pooled?, pooled?]
  · refine misses.trans ?_
    simp [repeated, sinceClear, List.rtakeWhile, Request.clears, Request.pooled?, pooled?]
  · have together : Together 2 ((start (ofSize 2)).asked repeated) 2 0 := by
      rw [asked]
      exact .inr ⟨1, by decide, rfl, rfl⟩
    exact (disciplined.seen [5.0] place (by rw [given]; rfl) (by rw [given]; rfl)).1 together

/-- More cells than can be numbered are asked for: there is no loan, and yet the request is counted
among those for lengths that are not pooled. -/
theorem counted_unallocated :
    let script : List Request := [.acquire (.whole 1152921504606846976)]
    ((start (ofSize 2)).requests script).map Prod.fst = [.error (.length .tooManyBytes)] ∧
      ((start (ofSize 2)).asked script).countP (2 ≤ ·) = 0 ∧
      ((start (ofSize 2)).after script).pool.misses = 1 := by
  have failed : (start (ofSize 2)).request (.acquire (.whole 1152921504606846976)) =
      (.error (.length .tooManyBytes), ⟨{ ofSize 2 with misses := 1 }, []⟩) := by
    simp [request, start, acquire?, ofSize, Datum.length?, Datum.checkLength,
      Datum.greatestNumber, Datum.bytesOf]
  simp [requests, asked, after, failed, Request.lent?]

end Lending
end ScratchPool
end ReversePolish

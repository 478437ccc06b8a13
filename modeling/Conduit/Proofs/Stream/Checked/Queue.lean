/-
# A byte ring is a bounded queue

`ByteQueue` is a list of bytes, the oldest first, with a bound on their number. A ring stands
for such a queue, whatever its cursors are (`Ring.StandsFor`), and one use of both moves the
same bytes and leaves a ring that stands for the queue (`StandsFor.use`). So a new ring answers
any uses in a row as an empty queue does that holds one byte less than the ring is long, and
none of the checks of `writeChecked` and `readChecked` fails on the way (`serves_as_queue`).
-/

import Conduit.Proofs.Stream.Checked.Ring

namespace Conduit

/-- A queue of bytes, the oldest first, and how many it can hold. -/
structure ByteQueue where
  bound : Nat
  bytes : List UInt8 := []

/-- What a byte queue is used for. -/
inductive QueueUse where
  /-- Bytes are appended, as many as fit. -/
  | write (data : List UInt8)
  /-- A buffer is filled from the front, as far as there are bytes. -/
  | read (buffer : List UInt8)

/-- How many bytes were moved, and the buffer afterwards if there is one. -/
structure QueueAnswer where
  count : Nat
  buffer : Option (List UInt8) := none
  deriving DecidableEq

/-- Uses one after the other, with their answers. -/
def QueueUse.all {ρ : Type} (use : ρ → QueueUse → QueueAnswer × ρ) :
    ρ → List QueueUse → List QueueAnswer × ρ
  | r, [] => ([], r)
  | r, u :: rest =>
      let (answer, r) := use r u
      let (answers, r) := all use r rest
      (answer :: answers, r)

/-- One use of a queue. -/
def ByteQueue.use (q : ByteQueue) : QueueUse → QueueAnswer × ByteQueue
  | .write data =>
      let count := min data.length (q.bound - q.bytes.length)
      ({ count }, { q with bytes := q.bytes ++ data.take count })
  | .read buffer =>
      let count := min buffer.length q.bytes.length
      ({ count, buffer := some (q.bytes.take count ++ buffer.drop count) },
        { q with bytes := q.bytes.drop count })

namespace Ring

/-- One use of a ring. -/
def use (r : Ring) : QueueUse → QueueAnswer × Ring
  | .write data =>
      let (count, r) := r.write data
      ({ count }, r)
  | .read buffer =>
      let (bytes, r) := r.read buffer.length
      ({ count := bytes.length, buffer := some (bytes ++ buffer.drop bytes.length) }, r)

/-- One use of a ring with every step checked. -/
def useChecked (r : Ring) : QueueUse → Except Panic (QueueAnswer × Ring)
  | .write data => do
      let (count, r) ← r.writeChecked data
      return ({ count }, r)
  | .read buffer => do
      let (count, buffer, r) ← r.readChecked buffer
      return ({ count, buffer := some buffer }, r)

/-- Uses one after the other with every step checked. -/
def useAllChecked (r : Ring) : List QueueUse → Except Panic (List QueueAnswer × Ring)
  | [] => .ok ([], r)
  | u :: rest => do
      let (answer, r) ← r.useChecked u
      let (answers, r) ← r.useAllChecked rest
      return (answer :: answers, r)

/-- A ring of a length stands for a queue that holds one byte less. -/
structure StandsFor (r : Ring) (length : Nat) (q : ByteQueue) : Prop where
  sized : r.Sized
  length_eq : r.storage.size = length
  bound_eq : q.bound = length - 1
  contents : r.toList = q.bytes

variable {r : Ring} {length : Nat} {q : ByteQueue}

theorem StandsFor.size_eq (stands : r.StandsFor length q) : r.size = q.bytes.length := by
  rw [← stands.contents, length_toList]

theorem StandsFor.free_eq (stands : r.StandsFor length q) :
    r.free = q.bound - q.bytes.length := by
  rw [free, capacity, stands.length_eq, stands.size_eq, stands.bound_eq]

/-! ### One use -/

theorem useChecked_eq (sized : r.Sized) (u : QueueUse) : r.useChecked u = .ok (r.use u) := by
  cases u with
  | write data =>
      rw [useChecked, writeChecked_eq sized]
      rfl
  | read buffer =>
      rw [useChecked, readChecked_eq sized]
      rfl

/-- The oldest bytes are read, and the others stay. -/
theorem read_eq (valid : r.Valid) (limit : Nat) :
    (r.read limit).1 = r.toList.take (min limit r.size) ∧
      (r.read limit).2.toList = r.toList.drop (min limit r.size) := by
  have split := toList_read valid limit
  have count : (r.read limit).1.length = min limit r.size := by
    simp only [read, List.length_map, List.length_range]
  rw [← count, split]
  exact ⟨List.take_left.symm, List.drop_left.symm⟩

/-- A use moves the same bytes for the ring and for the queue. -/
theorem StandsFor.use (stands : r.StandsFor length q) (u : QueueUse) :
    (r.use u).1 = (q.use u).1 ∧ (r.use u).2.StandsFor length (q.use u).2 := by
  cases u with
  | write data =>
      have count : (r.write data).1 = min data.length (q.bound - q.bytes.length) := by
        rw [← stands.free_eq]
        rfl
      refine ⟨congrArg (fun count => ({ count } : QueueAnswer)) count, {
        sized := stands.sized.after_write data
        length_eq := ?_
        bound_eq := stands.bound_eq
        contents := ?_ }⟩
      · exact (size_fill _ _ _).trans stands.length_eq
      · change (r.write data).2.toList = _
        rw [toList_write stands.sized.toValid, stands.contents, count]
        rfl
  | read buffer =>
      obtain ⟨taken, left⟩ := read_eq stands.sized.toValid buffer.length
      rw [stands.contents, stands.size_eq] at taken left
      have count : (r.read buffer.length).1.length = min buffer.length q.bytes.length := by
        rw [taken, List.length_take_of_le (Nat.min_le_right _ _)]
      refine ⟨?_, {
        sized := stands.sized.after_read buffer.length
        length_eq := stands.length_eq
        bound_eq := stands.bound_eq
        contents := left }⟩
      simp only [Ring.use, ByteQueue.use]
      rw [count, taken]

/-! ### Any uses -/

/-- Whatever the ring is used for, it answers as the queue does and stands for it in the end. -/
theorem StandsFor.useAll (stands : r.StandsFor length q) (uses : List QueueUse) :
    r.useAllChecked uses = .ok (QueueUse.all Ring.use r uses) ∧
      (QueueUse.all Ring.use r uses).1 = (QueueUse.all ByteQueue.use q uses).1 ∧
      (QueueUse.all Ring.use r uses).2.StandsFor length (QueueUse.all ByteQueue.use q uses).2 := by
  induction uses generalizing r q with
  | nil => exact ⟨rfl, rfl, stands⟩
  | cons u rest ih =>
      obtain ⟨answer, next⟩ := stands.use u
      obtain ⟨checked, answers, last⟩ := ih next
      refine ⟨?_, ?_, last⟩
      · rw [useAllChecked, useChecked_eq stands.sized]
        simp only [bind, Except.bind, checked]
        rfl
      · simp only [QueueUse.all, answer, answers]

/-- What a ring of a length shows while it stands for a queue. -/
structure Shows (r : Ring) (length : Nat) (q : ByteQueue) : Prop where
  readAt_lt : r.readAt < length
  writeAt_lt : r.writeAt < length
  contents : r.toList = q.bytes
  bounded : q.bytes.length ≤ length - 1
  size : r.sizeChecked = .ok q.bytes.length
  free : r.freeChecked = .ok (length - 1 - q.bytes.length)
  isEmpty : r.isEmpty = true ↔ q.bytes = []

/-- The cursors meet only if nothing is held. -/
theorem Valid.isEmpty_iff (valid : r.Valid) : r.isEmpty = true ↔ r.toList = [] := by
  have room := valid.room
  have ends := valid.add_size
  rw [← List.length_eq_zero_iff, length_toList, isEmpty, beq_iff_eq]
  constructor
  · intro meet
    unfold Ring.size
    rw [meet, Nat.add_sub_cancel_left, Nat.mod_self]
  · intro none
    rw [none, Nat.add_zero, Nat.mod_eq_of_lt valid.readAt_lt] at ends
    exact ends

theorem StandsFor.shows (stands : r.StandsFor length q) : r.Shows length q where
  readAt_lt := stands.length_eq ▸ stands.sized.readAt_lt
  writeAt_lt := stands.length_eq ▸ stands.sized.writeAt_lt
  contents := stands.contents
  bounded := by
    have below := stands.sized.size_lt
    rw [stands.size_eq, stands.length_eq] at below
    omega
  size := stands.size_eq ▸ sizeChecked_eq stands.sized
  free := by
    rw [freeChecked_eq stands.sized, stands.free_eq, stands.bound_eq]
  isEmpty := stands.contents ▸ stands.sized.isEmpty_iff

/-- A new ring is empty. -/
theorem standsFor_create (two : 2 ≤ length) (short : length < lengthLimit) :
    ∃ r, create length = .ok (.ok r) ∧ r.StandsFor length { bound := length - 1 } := by
  have storage : (Array.replicate length (0 : UInt8)).size = length := Array.size_replicate
  refine ⟨{ storage := Array.replicate length 0 }, ?_, {
    sized := ?_
    length_eq := storage
    bound_eq := rfl
    contents := ?_ }⟩
  · rw [create, if_neg (Nat.not_lt.mpr two), if_pos short]
  · have first : 0 < (Array.replicate length (0 : UInt8)).size := by omega
    exact { room := storage.symm ▸ two, readAt_lt := first, writeAt_lt := first,
            short := storage.symm ▸ short }
  · have none : ({ storage := Array.replicate length 0 } : Ring).size = 0 := by
      simp [Ring.size]
    rw [← List.length_eq_zero_iff, length_toList, none]

/-- A ring of any length is a queue that holds one byte less. Whatever is written to it and read
from it in whatever order, it answers as the queue does: it appends as many bytes as fit, it
fills a buffer with the oldest ones and leaves the rest of the buffer alone. Neither a cursor nor
a range of the storage, of the data or of the buffer is ever outside, and no number overflows. -/
theorem serves_as_queue (two : 2 ≤ length) (short : length < lengthLimit) (uses : List QueueUse) :
    ∃ r, create length = .ok (.ok r) ∧
      r.useAllChecked uses = .ok (QueueUse.all Ring.use r uses) ∧
      (QueueUse.all Ring.use r uses).1 =
        (QueueUse.all ByteQueue.use { bound := length - 1 } uses).1 ∧
      (QueueUse.all Ring.use r uses).2.Shows length
        (QueueUse.all ByteQueue.use { bound := length - 1 } uses).2 := by
  obtain ⟨r, created, stands⟩ := standsFor_create two short
  obtain ⟨checked, answers, last⟩ := stands.useAll uses
  exact ⟨r, created, checked, answers, last.shows⟩

/-- Four bytes of storage, all of them used: three bytes go round the end. -/
theorem serves_as_queue_round : ∃ r, create 4 = .ok (.ok r) ∧
    ∃ r', r.useAllChecked [.write [1, 2], .read [9, 9], .write [3, 4, 5, 6], .read [9, 9, 9, 9]] =
        .ok ([{ count := 2 }, { count := 2, buffer := some [1, 2] }, { count := 3 },
          { count := 3, buffer := some [3, 4, 5, 9] }], r') ∧
      r'.Shows 4 { bound := 3 } := by
  obtain ⟨r, created, checked, answers, shows⟩ := serves_as_queue (show 2 ≤ 4 by decide)
    (by decide) [.write [1, 2], .read [9, 9], .write [3, 4, 5, 6], .read [9, 9, 9, 9]]
  refine ⟨r, created, _, checked.trans ?_, shows⟩
  rw [← Prod.eta (QueueUse.all Ring.use r _), answers]
  rfl

end Ring

end Conduit

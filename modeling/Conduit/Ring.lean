/-
# Byte rings

A ring is a byte queue of bounded length in a fixed storage. It is empty when
its two cursors meet, so one byte of the storage is never used. `toList` is its
contents, the oldest byte first.
-/

import Conduit.Error
import Conduit.Panic

namespace Conduit

/-- A byte queue in a fixed storage. -/
structure Ring where
  /-- The storage. -/
  storage : Array UInt8
  /-- The position of the oldest byte. -/
  readAt : Nat := 0
  /-- The position of the next byte to come. -/
  writeAt : Nat := 0
  deriving DecidableEq

namespace Ring

/-- The length from which on a storage cannot be addressed. -/
def lengthLimit : Nat := 0x8000000000000000

/-- An empty ring with a storage of this length, which is at least two. -/
def create (length : Nat) : Except Panic (Except Error Ring) :=
  if length < 2 then .ok (.error .invalidSize)
  else if length < lengthLimit then .ok (.ok { storage := Array.replicate length 0 })
  else .error .tooLarge

/-- How many bytes the ring can hold. -/
def capacity (r : Ring) : Nat := r.storage.size - 1

/-- How many bytes the ring holds. -/
def size (r : Ring) : Nat := (r.writeAt + r.storage.size - r.readAt) % r.storage.size

/-- Tells whether the ring holds no byte. -/
def isEmpty (r : Ring) : Bool := r.readAt == r.writeAt

/-- How many bytes can be written. -/
def free (r : Ring) : Nat := r.capacity - r.size

/-- The byte at this distance from the oldest one. -/
def peek (r : Ring) (i : Nat) : UInt8 := r.storage.getD ((r.readAt + i) % r.storage.size) 0

/-- The contents, the oldest byte first. -/
def toList (r : Ring) : List UInt8 := (List.range r.size).map r.peek

/-- The storage after the bytes are written from a position on, going round. -/
def fill (storage : Array UInt8) (position : Nat) : List UInt8 → Array UInt8
  | [] => storage
  | b :: rest => fill (storage.setIfInBounds (position % storage.size) b) (position + 1) rest

/-- Appends as many of the bytes as fit; gives their number. -/
def write (r : Ring) (data : List UInt8) : Nat × Ring :=
  let count := min data.length r.free
  (count, { r with
    storage := fill r.storage r.writeAt (data.take count)
    writeAt := (r.writeAt + count) % r.storage.size })

/-- Takes at most `limit` bytes, the oldest first. -/
def read (r : Ring) (limit : Nat) : List UInt8 × Ring :=
  let count := min limit r.size
  ((List.range count).map r.peek, { r with readAt := (r.readAt + count) % r.storage.size })

end Ring

end Conduit

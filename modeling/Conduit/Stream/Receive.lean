/-
# Receiving from a stream

A reader is a receiving end of a stream together with the buffer that it fills
from the front. Bytes that reached the buffer stay there, also when the
operation fails afterwards.

* `fill` — takes what there is, without waiting for more.
* `receive` — waits for the first byte, or for the end of the stream.
* `receiveAll` — waits until the buffer is full.
* `receiveMessage` — waits for one whole logical message.
-/

import Conduit.Stream

namespace Conduit

/-- A receiving end of a stream, and the bytes that reached the buffer. -/
structure Reader where
  /-- The stream. -/
  stream : Stream
  /-- The buffer as far as it is filled. -/
  filled : List UInt8 := []

namespace Reader

variable {σ : Type}

/-- Runs a task of the stream. -/
def onStream {α : Type} : Task Stream σ α → Task Reader σ α :=
  Task.within Reader.stream fun stream r => { r with stream }

/-- The buffer of this length after the operation: what was not filled still holds
the byte that it held before. -/
def buffer (r : Reader) (length : Nat) (before : UInt8) : List UInt8 :=
  r.filled ++ List.replicate (length - r.filled.length) before

/-- Fills the buffer from the received bytes, up to a length. -/
def drain (r : Reader) (upTo : Nat) : Reader :=
  let (bytes, stream) := r.stream.drain (upTo - r.filled.length)
  { stream, filled := r.filled ++ bytes }

/-- One round of filling: the received bytes, then one message if the buffer is
not yet full. Gives a value once nothing is left to be done. -/
def fillRound (upTo : Nat) : Task Reader σ (Option Unit) := do
  Task.modifySelf (·.drain upTo)
  let r ← Task.self
  if r.filled.length = upTo ∨ r.stream.closed then return some ()
  match ← onStream Stream.pull with
  | none => return some ()
  | some _ => return none

/-- Fills the buffer up to a length, or as far as messages are waiting. A round
that goes on took one of the waiting messages or let a turn pass, which bounds
the rounds. -/
def fill (upTo : Nat) : Task Reader σ Unit := do
  let now ← get
  let backlog := now.self.stream.transport.backlogLimit now.scene.machine
  Task.repeatWithin ((now.turns.length + 1) * (backlog + 2)) (fillRound upTo)

/-- Takes what there is, and gives the number of bytes in the buffer. -/
def receiveAvailable (length : Nat) : Task Reader σ Nat := do
  fill length
  return (← Task.self).filled.length

/-- Waits for at least one byte, or for the end of the stream. -/
def receive (length : Nat) : Task Reader σ Nat :=
  Task.await do
    fill length
    let r ← Task.self
    if 0 < r.filled.length ∨ length = 0 ∨ r.stream.closed then return some r.filled.length
    else return none

/-- Waits until the buffer is filled up to a length. Fails when the stream ends
before that. -/
def receiveAll (upTo : Nat) : Task Reader σ Unit :=
  Task.await do
    fill upTo
    let r ← Task.self
    if r.filled.length = upTo then return some ()
    if r.stream.closed ∧ r.stream.buffered = 0 then Task.fail .closed
    return none

/-- Waits for the first message of a byte string, and gives the length. -/
def awaitStart : Task Reader σ UInt64 :=
  Task.await do
    if (← Task.self).stream.closed then Task.fail .closed
    match ← onStream Stream.pull with
    | none => return none
    | some (.start length) => return some length
    | some _ => Task.fail .closed

/-- Waits for one whole logical message and gives its length. There must be
nothing left of an earlier one. A message that does not fit the buffer stays
where it is, to be read as a stream. -/
def receiveMessage (length : Nat) : Task Reader σ Nat := do
  let r ← Task.self
  if r.stream.bytesLeft ≠ 0 ∨ r.stream.buffered ≠ 0 then Task.fail .invalidSize
  let total ← awaitStart
  if total.toNat > length then Task.fail .overflow
  receiveAll total.toNat
  return total.toNat

end Reader

end Conduit

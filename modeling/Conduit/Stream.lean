/-
# Byte streams

A stream carries byte strings of any length over a transport. A string is sent
as one logical message: its length in the first word, then its bytes, packed
into the rest of the first transport message and into as many further ones as
it takes. A length that no string has announces that the sender closed the
stream.

The receiving end puts the pieces together in a ring. Bytes that do not fit the
ring are parked behind it, and nothing more is taken from the transport before
they are read.

* `wireForm` — the messages in which a byte string travels.
* `absorb` — what one message adds to the receiving end.
* `Reader` — a receiving end together with the buffer that it fills; the
  operations that receive are in `Conduit.Stream.Receive`.
-/

import Conduit.Ring
import Conduit.Transport

namespace Conduit

/-- One end of a byte stream. -/
structure Stream where
  /-- What carries the messages. -/
  transport : Transport
  /-- Received bytes, the oldest ones. -/
  ring : Ring
  /-- Received bytes that did not fit the ring, in order. -/
  parked : List UInt8 := []
  /-- The bytes of the current logical message that are still to come. -/
  bytesLeft : UInt64 := 0
  /-- One of the two sides closed the stream. -/
  closed : Bool := false

/-- What one message of the transport is to the stream. -/
inductive Fragment where
  /-- The first message of a byte string of this length. -/
  | start (length : UInt64)
  /-- A further message of a byte string. -/
  | continuation
  /-- The announcement that the sender closed the stream. -/
  | close
  deriving DecidableEq

namespace Stream

variable {σ : Type}

/-- The length that announces the end of the stream. -/
def closeMark : UInt64 := 0xffffffffffffffff

/-- A stream over a transport, with a ring of this length. -/
def create (transport : Transport) (ringLength : Nat) : Except Panic (Except Error Stream) := do
  match ← Ring.create ringLength with
  | .error e => return .error e
  | .ok ring => return .ok { transport, ring }

/-- The number of received bytes that wait to be read. -/
def buffered (s : Stream) : Nat := s.ring.size + s.parked.length

/-- The received bytes that wait to be read, the oldest first. -/
def backlog (s : Stream) : List UInt8 := s.ring.toList ++ s.parked

/-- A stream is described by its transport, what it holds and what it expects. -/
def describe (s : Stream) : String :=
  "DataChannel \x7b backend: " ++ s.transport.describe ++ ", buffered: " ++ toString s.buffered
    ++ ", bytes_left: " ++ toString s.bytesLeft.toNat ++ ", closed: " ++ toString s.closed
    ++ " \x7d"

/-! ### The wire form of a byte string -/

/-- Cuts bytes into runs of the given length, the last of which may be shorter. -/
def chunksWithin (bound length : Nat) (bytes : List UInt8) : List (List UInt8) :=
  match bound, bytes with
  | 0, _ => []
  | _, [] => []
  | bound + 1, bytes => bytes.take length :: chunksWithin bound length (bytes.drop length)

/-- Cuts bytes into runs of the given positive length. -/
def chunks (length : Nat) (bytes : List UInt8) : List (List UInt8) :=
  chunksWithin bytes.length length bytes

/-- How many bytes the first message holds besides the length. -/
def headRoom (width : Nat) : Nat := (width - 1) * Word.size

/-- The first message of a byte string. -/
def headWords (width : Nat) (data : List UInt8) : List UInt64 :=
  UInt64.ofNat data.length :: Word.pack (width - 1) (data.take (headRoom width))

/-- The further messages of a byte string. -/
def tailWords (width : Nat) (data : List UInt8) : List (List UInt64) :=
  (chunks (width * Word.size) (data.drop (headRoom width))).map (Word.pack width)

/-- The messages in which a byte string travels, each `width` words long. -/
def wireForm (width : Nat) (data : List UInt8) : List (List UInt64) :=
  headWords width data :: tailWords width data

/-- The announcement of the end of the stream. -/
def closeWords (width : Nat) : List UInt64 := closeMark :: List.replicate (width - 1) 0

/-! ### Sending -/

/-- Runs a task of the transport. -/
def onTransport {α : Type} : Task Transport σ α → Task Stream σ α :=
  Task.within Stream.transport fun transport s => { s with transport }

/-- Sends the further messages of a byte string. Over a capability channel the
last of them waits for the receiver. -/
def sendTail : List (List UInt64) → Task Stream σ Unit
  | [] => return ()
  | [words] => do
      let s ← Task.self
      let flags := if s.transport.isEndpoint then SendFlags.standard.withSync
        else SendFlags.standard
      onTransport (Transport.send { words } flags)
  | words :: rest => do
      onTransport (Transport.send { words } SendFlags.standard)
      sendTail rest

/-- Sends a byte string. A closed stream and a channel without a peer refuse it. -/
def send (data : List UInt8) : Task Stream σ Unit := do
  let s ← Task.self
  if s.closed then Task.fail .closed
  if UInt64.ofNat data.length = closeMark then Task.fail .invalidSize
  match s.transport with
  | .endpoint { peer := none, .. } => Task.fail .notConnected
  | _ =>
      let width := s.transport.width
      onTransport (Transport.send { words := headWords width data } SendFlags.standard)
      sendTail (tailWords width data)

/-- Closes the stream and tells the peer, if it can be told. Closing again does
nothing. -/
def close : Task Stream σ Unit := do
  let s ← Task.self
  if s.closed then return ()
  Task.setSelf { s with closed := true }
  let _ ← Task.settle (onTransport
    (Transport.send { words := closeWords s.transport.width } SendFlags.standard))

/-! ### Putting the pieces together -/

/-- Stores received bytes in the ring, and parks those that do not fit. While
bytes are parked, new ones are parked behind them. -/
def stash (s : Stream) (bytes : List UInt8) : Stream :=
  if s.parked.isEmpty then
    let (written, ring) := s.ring.write bytes
    { s with ring, parked := bytes.drop written }
  else { s with parked := s.parked ++ bytes }

/-- Moves parked bytes into the ring, as many as fit. -/
def unpark (s : Stream) : Stream :=
  let (moved, ring) := s.ring.write s.parked
  { s with ring, parked := s.parked.drop moved }

/-- Adds the bytes that a message holds for the current logical message. -/
def take (s : Stream) (payload : List UInt64) : Stream :=
  let count := min s.bytesLeft.toNat (payload.length * Word.size)
  { s with bytesLeft := s.bytesLeft - UInt64.ofNat count }.stash
    ((Word.unpack payload).take count)

/-- Adds what one message of the transport holds. Between logical messages its
first word is a length, or the mark of the end; otherwise all of it is bytes. -/
def absorb (s : Stream) (words : List UInt64) : Fragment × Stream :=
  if s.bytesLeft = 0 then
    let mark := words.headD 0
    if mark = closeMark then (.close, { s with closed := true })
    else (.start mark, { s with bytesLeft := mark }.take words.tail)
  else (.continuation, s.take words)

/-- Takes one message from the transport, if one is waiting. -/
def pull : Task Stream σ (Option Fragment) := do
  if !(← onTransport Transport.canReceive) then return none
  match ← onTransport Transport.receive with
  | none => return none
  | some message =>
      let (fragment, s) := (← Task.self).absorb message.words
      Task.setSelf s
      return some fragment

/-- Takes at most `limit` received bytes out, moving parked bytes up into the ring
whenever it runs empty, within a bound. -/
def drainWithin (bound limit : Nat) (s : Stream) : List UInt8 × Stream :=
  match bound with
  | 0 => ([], s)
  | bound + 1 =>
      let (bytes, ring) := s.ring.read limit
      let s := { s with ring }
      if bytes.length = limit ∨ s.parked.isEmpty then (bytes, s)
      else
        let (more, s) := drainWithin bound (limit - bytes.length) s.unpark
        (bytes ++ more, s)

/-- Takes at most `limit` received bytes out. Each round after the first gives at
least one byte. -/
def drain (s : Stream) (limit : Nat) : List UInt8 × Stream := drainWithin (limit + 1) limit s

end Stream

end Conduit

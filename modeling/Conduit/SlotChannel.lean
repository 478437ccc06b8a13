/-
# Channels over shared memory

A slot channel connects two cores through two panes of shared memory, one for
each direction. A pane is divided into slots of equal size. The first word of a
slot holds a flag in its low byte, the others hold the payload. The sender fills
a slot that is free or received and marks it sent; the receiver reads a slot
that is sent and marks it received. Each side goes round its slots in order with
a cursor of its own, so messages arrive in the order in which they were sent.

A channel is polled, unless its receiver asked to be notified by a bell.
-/

import Conduit.Error
import Conduit.Machine

namespace Conduit

/-- The flags that a slot may carry. -/
inductive SlotFlag where
  /-- Never filled. -/
  | free
  /-- Filled and not yet read. -/
  | sent
  /-- Read, so that it can be filled again. -/
  | received
  /-- Anything else: the slot can be neither filled nor read. -/
  | other
  deriving DecidableEq

namespace SlotFlag

/-- The flag in the low byte of a word. -/
def ofWord (w : UInt64) : SlotFlag :=
  if w.toUInt8 = 0 then free
  else if w.toUInt8 = 1 then sent
  else if w.toUInt8 = 2 then received
  else other

/-- The word that announces a filled slot. -/
def sentWord : UInt64 := 1

/-- The word that gives a slot back. -/
def receivedWord : UInt64 := 2

/-- Tells whether the sender may fill the slot. -/
def isOpen : SlotFlag → Bool
  | free => true
  | received => true
  | sent => false
  | other => false

end SlotFlag

/-- One end of a channel over shared memory. -/
structure SlotChannel where
  /-- Where this end sends. -/
  sendPane : View
  /-- Where this end receives. -/
  recvPane : View
  /-- The number of words in a slot, the flag included. -/
  slotWords : Nat
  /-- The number of slots in each pane. -/
  slots : Nat
  /-- The next slot to fill. -/
  sendIndex : Nat := 0
  /-- The next slot to read. -/
  recvIndex : Nat := 0
  /-- The bell that tells this end of messages. -/
  localBell : Option BellId := none
  /-- The bell that tells the other end of messages. -/
  remoteBell : Option BellId := none
  deriving DecidableEq

namespace SlotChannel

/-- The size in bytes of the largest slot. -/
def maxSlotBytes : Nat := 256

/-- A slot is made of whole words, holds at least one after the flag, and is not
larger than the largest. -/
def validSlotBytes (bytes : Nat) : Bool :=
  bytes % Word.size == 0 && 2 ≤ bytes / Word.size && bytes ≤ maxSlotBytes

/-- One end of a channel over two panes. Both must be of the same length, not
empty, and made of whole slots. -/
def create (slotBytes : Nat) (sendPane recvPane : View) : Except Error SlotChannel :=
  if !validSlotBytes slotBytes then .error .invalidSize
  else if sendPane.isEmpty || sendPane.bytes % slotBytes ≠ 0 then .error .invalidSize
  else if recvPane.isEmpty || recvPane.bytes % slotBytes ≠ 0 then .error .invalidSize
  else if sendPane.bytes ≠ recvPane.bytes then .error .invalidSize
  else .ok { sendPane, recvPane, slotWords := slotBytes / Word.size,
             slots := sendPane.bytes / slotBytes }

/-- One end of a channel over the two halves of a view. The end that takes the
first half sends on the lower one, its peer on the upper one. -/
def overHalves (v : View) (slotBytes : Nat) (firstHalf : Bool) : Except Error SlotChannel :=
  match v.splitAt (v.bytes / 2) with
  | none => .error .invalidSize
  | some (low, high) =>
      if firstHalf then create slotBytes low high else create slotBytes high low

/-- The size of a slot in bytes, the flag included. -/
def slotBytes (c : SlotChannel) : Nat := c.slotWords * Word.size

/-- The number of payload words in a message. -/
def payloadWords (c : SlotChannel) : Nat := c.slotWords - 1

/-- The word of a pane at which a slot begins. -/
def base (c : SlotChannel) (index : Nat) : Nat := index * c.slotWords

/-- The first words of a payload, with zeros for those that are missing. -/
def pad (width : Nat) (payload : List UInt64) : List UInt64 :=
  (payload ++ List.replicate (width - payload.length) 0).take width

/-- Fills the next slot, if it is open, and rings the peer's bell. A payload that
is too long is refused whatever the slot holds. -/
def send (c : SlotChannel) (payload : List UInt64) (m : Machine) :
    Except Panic (Except Error Bool × SlotChannel × Machine) :=
  if payload.length > c.payloadWords then .ok (.error .invalidSize, c, m)
  else do
    let base := c.base c.sendIndex
    let flag ← m.memory.load c.sendPane base
    if (SlotFlag.ofWord flag).isOpen then
      let memory ← m.memory.storeAll c.sendPane (base + 1) (pad c.payloadWords payload)
      let memory ← memory.store c.sendPane base SlotFlag.sentWord
      let bells := match c.remoteBell with
        | none => m.bells
        | some bell => m.bells.ring bell
      return (.ok true, { c with sendIndex := (c.sendIndex + 1) % c.slots },
        { m with memory, bells })
    else return (.ok false, c, m)

/-- Tells whether the next slot to read is filled. -/
def canReceive (c : SlotChannel) (m : Machine) : Except Panic Bool := do
  let flag ← m.memory.load c.recvPane (c.base c.recvIndex)
  return SlotFlag.ofWord flag = .sent

/-- Reads at most `limit` payload words of the next slot, if it is filled, and
gives the slot back. -/
def receive (c : SlotChannel) (limit : Nat) (m : Machine) :
    Except Panic (Option (List UInt64) × SlotChannel × Machine) := do
  let base := c.base c.recvIndex
  let flag ← m.memory.load c.recvPane base
  if SlotFlag.ofWord flag = .sent then
    let words ← m.memory.loadAll c.recvPane (base + 1) (min limit c.payloadWords)
    let memory ← m.memory.store c.recvPane base SlotFlag.receivedWord
    return (some words, { c with recvIndex := (c.recvIndex + 1) % c.slots }, { m with memory })
  else return (none, c, m)

/-- Has this end notified by a bell from now on, which it can ask for once. -/
def notifyLocal (c : SlotChannel) (bell : BellId) : Except Error SlotChannel :=
  match c.localBell with
  | some _ => .error .alreadyPinged
  | none => .ok { c with localBell := some bell }

/-- Rings a bell after each message sent from now on. -/
def notifyRemote (c : SlotChannel) (bell : BellId) : SlotChannel :=
  { c with remoteBell := some bell }

/-- Whether there is something to do for the receiver: its bell was rung, or, if
it has none, a message is waiting. -/
def takeNotification (c : SlotChannel) (m : Machine) : Except Panic (Bool × Machine) :=
  match c.localBell with
  | some bell =>
      let (rung, bells) := m.bells.take bell
      .ok (rung, { m with bells })
  | none => do
      let waiting ← c.canReceive m
      return (waiting, m)

/-- A channel is described by its sizes, its cursors and whether its ends are
notified. -/
def describe (c : SlotChannel) : String :=
  "UmpChannel \x7b msg_size: " ++ toString c.slotBytes ++ ", slots: " ++ toString c.slots
    ++ ", send_index: " ++ toString c.sendIndex ++ ", recv_index: " ++ toString c.recvIndex
    ++ ", local_is_pinged: " ++ toString c.localBell.isSome
    ++ ", remote_is_pinged: " ++ toString c.remoteBell.isSome ++ " \x7d"

end SlotChannel

end Conduit

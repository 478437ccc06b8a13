/-
# The kernel

The kernel hands out capabilities, queues messages at endpoints and keeps the
frames that capabilities name. All slots come from one counter and are never
used twice. Each endpoint has one queue of bounded length; a full queue refuses
messages for the moment, and nothing is ever dropped.
-/

import Conduit.Capability
import Conduit.Error
import Conduit.Memory
import Conduit.Table

namespace Conduit

/-- The state of the kernel. -/
structure Kernel where
  /-- How many messages an endpoint queues. -/
  depth : Nat
  /-- The next slot to hand out. -/
  nextSlot : UInt32 := 0
  /-- The messages waiting at each endpoint, the oldest first. -/
  queues : Table Cap (List Letter) := {}
  /-- The frames by their capabilities. -/
  frames : Table Cap View := {}
  /-- How many messages were accepted with acknowledgement. -/
  syncSends : Nat := 0
  /-- How many receive slots were handed out. -/
  recvSlots : Nat := 0

namespace Kernel

/-- How many messages an endpoint queues unless something else is asked for. -/
def standardDepth : Nat := 16

/-- A kernel without objects; an endpoint queues at least one message. -/
def create (depth : Nat) : Kernel := { depth := max depth 1 }

/-- Hands out a slot. The last number is never handed out. -/
def allocSlot (k : Kernel) : Except ChannelError (Cap × Kernel) :=
  if k.nextSlot = 0xffffffff then .error .noSpace
  else .ok (⟨k.nextSlot⟩, { k with nextSlot := k.nextSlot + 1 })

/-- Creates an endpoint with an empty queue. -/
def createEndpoint (k : Kernel) : Except ChannelError (Cap × Kernel) := do
  let (cap, k) ← k.allocSlot
  return (cap, { k with queues := k.queues.insert cap [] })

/-- Hands out a slot for the next capability to be received. -/
def allocRecvSlot (k : Kernel) : Except ChannelError Kernel := do
  let (_, k) ← k.allocSlot
  return { k with recvSlots := k.recvSlots + 1 }

/-- The messages waiting at an endpoint. -/
def waiting (k : Kernel) (target : Cap) : List Letter := (k.queues.get? target).getD []

/-- The number of messages waiting at an endpoint. -/
def pending (k : Kernel) (target : Cap) : Nat := (k.waiting target).length

/-- Queues a message at an endpoint. -/
def enqueue (k : Kernel) (target : Cap) (letter : Letter) (flags : SendFlags) :
    Except ChannelError Kernel :=
  match k.queues.get? target with
  | none => .error .noSuchEndpoint
  | some queue =>
      if queue.length ≥ k.depth then .error .transient
      else .ok { k with
        queues := k.queues.insert target (queue ++ [letter])
        syncSends := if flags.sync then k.syncSends + 1 else k.syncSends }

/-- Queues a message at an endpoint, as a sender without a channel would. -/
def inject (k : Kernel) (target : Cap) (letter : Letter) : Except ChannelError Kernel :=
  k.enqueue target letter SendFlags.none

/-- Takes the oldest message waiting at an endpoint. -/
def dequeue (k : Kernel) (cap : Cap) : Except ChannelError (Letter × Kernel) :=
  match k.queues.get? cap with
  | none => .error .noSuchEndpoint
  | some [] => .error .noMessage
  | some (letter :: rest) => .ok (letter, { k with queues := k.queues.insert cap rest })

/-- The frame that a capability names. -/
def mapFrame (k : Kernel) (cap : Cap) : Except ChannelError View :=
  match k.frames.get? cap with
  | none => .error .invalidCap
  | some view => .ok view

end Kernel

end Conduit

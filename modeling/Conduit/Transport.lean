/-
# Transports

A transport carries messages of a fixed number of words between two parties. It
is either an endpoint of a capability channel, whose messages are four words and
may carry a capability, or one end of a channel over shared memory, whose
messages fill one slot and carry none. Sending waits while the other side has no
room; receiving waits only while the kernel refuses for the moment.
-/

import Conduit.SlotChannel
import Conduit.Task

namespace Conduit

/-- One end of a channel. -/
inductive Transport where
  /-- An end of a capability channel. -/
  | endpoint (ep : Endpoint)
  /-- An end of a channel over shared memory. -/
  | slots (chan : SlotChannel)
  deriving DecidableEq

/-- What travels at once. -/
structure Message where
  /-- The words. -/
  words : List UInt64
  /-- The capability, if one travels along. -/
  cap : Option Cap := none
  deriving DecidableEq

/-- The first word; by convention it says what the message is. -/
def Message.tag (message : Message) : UInt64 := message.words.headD 0

namespace Transport

variable {σ : Type}

/-- The number of words in a message. -/
def width : Transport → Nat
  | endpoint _ => Letter.width
  | slots chan => chan.payloadWords

/-- Tells whether this is an end of a capability channel. -/
def isEndpoint : Transport → Bool
  | endpoint _ => true
  | slots _ => false

/-- How many messages may be waiting at once. -/
def backlogLimit (m : Machine) : Transport → Nat
  | endpoint _ => m.kernel.depth
  | slots chan => chan.slots

/-- Tells whether a message is waiting. -/
def canReceive : Task Transport σ Bool := do
  match ← Task.self with
  | endpoint ep => return ep.canRecv (← Task.machine)
  | slots chan => Task.orPanic (chan.canReceive (← Task.machine))

/-- Tries once to send; gives nothing if there is no room for the moment. -/
def offer (message : Message) (flags : SendFlags) : Task Transport σ (Option Unit) := do
  match ← Task.self with
  | endpoint ep =>
      match ← Task.asking (ep.send flags ⟨Letter.fit message.words, message.cap⟩) with
      | .ok () => return some ()
      | .error .transient => return none
      | .error e => Task.fail (Error.ofChannel e)
  | slots chan =>
      let (sent, chan, m) ← Task.orPanic (chan.send message.words (← Task.machine))
      Task.setMachine m
      Task.setSelf (slots chan)
      match sent with
      | .ok true => return some ()
      | .ok false => return none
      | .error _ => return none

/-- Sends a message, and waits until there is room. -/
def send (message : Message) (flags : SendFlags) : Task Transport σ Unit := do
  match ← Task.self with
  | endpoint _ => Task.await (offer message flags)
  | slots chan =>
      if message.cap.isSome then Task.fail .notImplemented
      if message.words.length > chan.payloadWords then Task.fail .invalidSize
      Task.await (offer message flags)

/-- Takes the oldest waiting message, if there is one. A capability received is
made up for by a new receive slot. -/
def receive : Task Transport σ (Option Message) := do
  match ← Task.self with
  | endpoint ep =>
      match ← Task.awaitAnswer (Task.asking ep.recv) with
      | .error .noMessage => return none
      | .error e => Task.fail (Error.ofChannel e)
      | .ok letter =>
          if letter.cap.isSome then Task.request ep.allocRecvSlot
          return some ⟨letter.words.toList, letter.cap⟩
  | slots chan =>
      let (words, chan, m) ← Task.orPanic (chan.receive chan.payloadWords (← Task.machine))
      Task.setMachine m
      Task.setSelf (slots chan)
      return words.map fun words => { words }

/-- Consumes the notification that a message is waiting. -/
def takeEvent : Task Transport σ Bool := do
  match ← Task.self with
  | endpoint ep =>
      let (event, ep) := ep.takeEvent (← Task.machine)
      Task.setSelf (endpoint ep)
      return event
  | slots chan => Task.onMachine chan.takeNotification

/-- Asks to be notified of the next message; a channel over shared memory needs
no such request. -/
def rearm : Task Transport σ Unit := do
  match ← Task.self with
  | endpoint ep =>
      let ep ← Task.request ep.register
      Task.setSelf (endpoint ep)
  | slots _ => return ()

/-- How the transport is named in descriptions. -/
def label : Transport → String
  | endpoint ep => toString ep.home
  | slots chan => "ump/" ++ toString chan.slotBytes

/-- How the transport of a stream is described. -/
def describe : Transport → String
  | endpoint ep => "Cap(Ep(" ++ toString ep.home.slot.toNat ++ "))"
  | slots chan => "Ump(" ++ chan.describe ++ ")"

end Transport

end Conduit

/-
# Endpoints

An endpoint is one end of a capability channel: it takes messages from the queue
at its own capability and sends messages to the queue of its peer. It can be
armed to report once that a message is waiting. No operation waits.
-/

import Conduit.Machine

namespace Conduit

/-- One end of a capability channel. -/
structure Endpoint where
  /-- The capability of this end. -/
  home : Cap
  /-- The capability of the other end, once it is known. -/
  peer : Option Cap := none
  /-- The endpoint will report the next message. -/
  armed : Bool := false
  deriving DecidableEq

namespace Endpoint

/-- A new endpoint without a peer. -/
def create (m : Machine) : Except ChannelError Endpoint × Machine :=
  match m.onKernel Kernel.createEndpoint with
  | (.error e, m) => (.error e, m)
  | (.ok cap, m) => (.ok { home := cap }, m)

/-- Two new endpoints that are each other's peers. -/
def createPair (m : Machine) : Except ChannelError (Endpoint × Endpoint) × Machine :=
  match create m with
  | (.error e, m) => (.error e, m)
  | (.ok a, m) =>
      match create m with
      | (.error e, m) => (.error e, m)
      | (.ok b, m) => (.ok ({ a with peer := some b.home }, { b with peer := some a.home }), m)

/-- Runs an operation of the endpoint, unless a fault is planned for it. -/
def unlessFault {α : Type} (ep : Endpoint) (op : EndpointOp) (m : Machine)
    (run : Machine → Except ChannelError α × Machine) : Except ChannelError α × Machine :=
  match m.nextFault (.endpoint ep.home op) with
  | (some e, m) => (.error e, m)
  | (none, m) => run m

/-- Queues a message at the peer. -/
def send (ep : Endpoint) (flags : SendFlags) (letter : Letter) (m : Machine) :
    Except ChannelError Unit × Machine :=
  ep.unlessFault .send m fun m =>
    match ep.peer with
    | none => (.error .notConnected, m)
    | some peer => m.onKernel_ fun k => k.enqueue peer letter flags

/-- Takes the oldest waiting message. -/
def recv (ep : Endpoint) (m : Machine) : Except ChannelError Letter × Machine :=
  ep.unlessFault .recv m fun m => m.onKernel fun k => k.dequeue ep.home

/-- Tells whether a message is waiting. -/
def canRecv (ep : Endpoint) (m : Machine) : Bool := m.kernel.pending ep.home > 0

/-- Provides a slot for the next capability to be received. -/
def allocRecvSlot (ep : Endpoint) (m : Machine) : Except ChannelError Unit × Machine :=
  ep.unlessFault .allocSlot m fun m => m.onKernel_ Kernel.allocRecvSlot

/-- Arms the report of the next message. -/
def register (ep : Endpoint) (m : Machine) : Except ChannelError Endpoint × Machine :=
  ep.unlessFault .register m fun m => (.ok { ep with armed := true }, m)

/-- Whether a message is waiting and its report was armed; the report is given once. -/
def takeEvent (ep : Endpoint) (m : Machine) : Bool × Endpoint :=
  if ep.armed && ep.canRecv m then (true, { ep with armed := false }) else (false, ep)

end Endpoint

end Conduit

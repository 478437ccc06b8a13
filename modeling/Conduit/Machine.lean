/-
# The machine that parties share

A machine is the kernel, the shared memory and the bells, together with the
faults that are planned for it. A fault plan belongs to one operation of one
endpoint, or of the allocator that calls use: each use of the operation takes
one entry of the plan, which either refuses it or lets it through. An operation
without a plan, or whose plan is used up, is not disturbed.
-/

import Conduit.Bell
import Conduit.Kernel

namespace Conduit

/-- The operations of an endpoint that a plan may refuse. -/
inductive EndpointOp where
  | send
  | recv
  | allocSlot
  | register
  deriving DecidableEq

/-- The operations of the allocator that a plan may refuse. -/
inductive AllocatorOp where
  | allocFrame
  | mapFrame
  deriving DecidableEq

/-- Where a planned fault strikes. -/
inductive FaultSite where
  | endpoint (cap : Cap) (op : EndpointOp)
  | allocator (op : AllocatorOp)
  deriving DecidableEq

/-- What happens to the next uses of an operation: a refusal, or nothing. -/
abbrev FaultPlan := List (Option ChannelError)

/-- What all parties share. -/
structure Machine where
  /-- The kernel. -/
  kernel : Kernel
  /-- The memory. -/
  memory : Memory := {}
  /-- The bells. -/
  bells : Bells := {}
  /-- The planned faults. -/
  faults : Table FaultSite FaultPlan := {}

namespace Machine

/-- A machine whose kernel is empty. -/
def create (depth : Nat) : Machine := { kernel := Kernel.create depth }

/-- Adds entries at the end of a plan. -/
def planFaults (m : Machine) (site : FaultSite) (plan : FaultPlan) : Machine :=
  { m with faults := m.faults.insert site ((m.faults.get? site).getD [] ++ plan) }

/-- Takes the next entry of a plan. -/
def nextFault (m : Machine) (site : FaultSite) : Option ChannelError × Machine :=
  match m.faults.get? site with
  | none => (none, m)
  | some [] => (none, m)
  | some (entry :: rest) => (entry, { m with faults := m.faults.insert site rest })

/-- Runs a kernel operation that gives a value. -/
def onKernel {α : Type} (m : Machine) (op : Kernel → Except ChannelError (α × Kernel)) :
    Except ChannelError α × Machine :=
  match op m.kernel with
  | .error e => (.error e, m)
  | .ok (a, kernel) => (.ok a, { m with kernel })

/-- Runs a kernel operation that gives no value. -/
def onKernel_ (m : Machine) (op : Kernel → Except ChannelError Kernel) :
    Except ChannelError Unit × Machine :=
  m.onKernel fun k => (op k).map fun k => ((), k)

/-- Allocates a frame of at least this many bytes and names it. -/
def allocFrame (m : Machine) (bytes : Nat) :
    Except Panic (Except ChannelError Cap × Machine) :=
  match m.kernel.allocSlot with
  | .error e => .ok (.error e, m)
  | .ok (cap, kernel) => do
      let (view, memory) ← m.memory.allocate bytes
      let kernel := { kernel with frames := kernel.frames.insert cap view }
      return (.ok cap, { m with kernel, memory })

/-- Allocates a frame for a call, unless a fault is planned. -/
def callAllocFrame (m : Machine) (bytes : Nat) :
    Except Panic (Except ChannelError Cap × Machine) :=
  match m.nextFault (.allocator .allocFrame) with
  | (some e, m) => .ok (.error e, m)
  | (none, m) => m.allocFrame bytes

/-- Maps a frame for a call, unless a fault is planned. -/
def callMapFrame (m : Machine) (cap : Cap) : Except ChannelError View × Machine :=
  match m.nextFault (.allocator .mapFrame) with
  | (some e, m) => (.error e, m)
  | (none, m) => (m.kernel.mapFrame cap, m)

end Machine

end Conduit

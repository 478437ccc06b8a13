/-
# Scripts

A script is a list of steps that parties take on named objects. A step that has
to wait carries the steps that the others take meanwhile, one list for each wait.
-/

import Conduit.Call.Binding
import Conduit.Call.Directory
import Conduit.Machine

namespace Conduit.Script

/-- A capability as a script writes it. -/
inductive CapName where
  /-- By its slot. -/
  | slot (slot : UInt32)
  /-- By the name of the endpoint or frame that it was made for. -/
  | name (name : String)
  deriving DecidableEq

/-- A value as a script writes it. -/
inductive ValueName where
  /-- A word or a string. -/
  | plain (value : Value)
  /-- A capability. -/
  | cap (cap : CapName)

/-- How a scripted handler answers. -/
inductive Reaction (υ : Type) where
  /-- With its arguments. -/
  | echo
  /-- With the same results each time. -/
  | fixed (rets : List υ)
  /-- With the results listed for each call, from the front again after the last. -/
  | cycle (rets : List (List υ))
  /-- By failing. -/
  | fail (error : Error)
  /-- With the sum of the words, modulo 2 ^ 64. -/
  | sum
  /-- With the strings, joined. -/
  | concat
  /-- With a new frame of as many bytes as the first argument says, and its size. -/
  | ram

/-- Steps on the kernel. -/
inductive KernelAction where
  | endpoint (name : String)
  | channel (a b : String)
  | allocSlot
  | allocFrame (bytes : Nat) (name : Option String)
  | mapFrame (cap : CapName) (name : String)
  | inject (target : CapName) (words : List UInt64) (cap : Option CapName)
  | pending (cap : CapName)
  | stats
  | planEndpoint (cap : CapName) (op : EndpointOp) (plan : FaultPlan)
  | planAllocator (op : AllocatorOp) (plan : FaultPlan)

/-- Steps on a view of memory. -/
inductive ViewAction where
  | window (offset length : Nat) (name : String)
  | split (mid : Nat) (low high : String)
  | load (index : Nat)
  | store (index : Nat) (word : UInt64)
  | write (offset : Nat) (data : List UInt8)
  | read (offset length : Nat)
  | readString (offset : Nat)
  | describe

/-- Steps on a bell. -/
inductive BellAction where
  | ring
  | state
  | take

/-- Steps on an endpoint. -/
inductive EndpointAction where
  | send (words : List UInt64) (cap : Option CapName) (flags : SendFlags)
  | recv
  | canRecv
  | allocRecvSlot
  | register
  | takeEvent
  | setPeer (cap : CapName)
  | state

/-- Steps on one end of a channel over shared memory. -/
inductive SlotAction where
  | send (words : List UInt64)
  | receive (limit : Nat)
  | notifyLocal (bell : String)
  | notifyRemote (bell : String)
  | takeNotification
  | state
  | describe

/-- Steps on a stream. -/
inductive StreamAction where
  | send (data : List UInt8)
  | receiveAvailable (length : Nat)
  | receive (length : Nat)
  | receiveMessage (length : Nat)
  | receiveAll (length : Nat)
  | close
  | state
  | describe

/-- Steps on a party of calls. -/
inductive RpcAction where
  | bind (binding : Binding)
  | binding (type : MessageType)
  | installStandard
  | handler (type : MessageType) (reaction : Reaction ValueName)
  | call (type : MessageType) (args : List ValueName)
  | onMessage
  | dispatchPending
  | introduce
  | sendNumber (number : UInt64)
  | sendString (text : String)
  | getRam (bytes alignment : UInt64)
  | serialPut (c : UInt8)
  | serialGet
  | readLine (limit : Nat)
  | spawn (command : String) (core : UInt64)
  | processName (pid : UInt64)
  | processes
  | ping
  | state
  | describe

/-- Steps on a directory of services. -/
inductive DirectoryAction where
  | install (service : Service) (rpc : String) (keep : Option String)
  | isDedicated (service : Service)
  | channel (service : Service)
  | describe

/-- What a step does. -/
inductive Action where
  | kernel (action : KernelAction)
  | newView (name : String) (bytes : Nat)
  | view (object : String) (action : ViewAction)
  | newBell (name : String)
  | bell (object : String) (action : BellAction)
  | endpoint (object : String) (action : EndpointAction)
  | newSlots (name : String) (slotBytes : Nat) (sendPane recvPane : String)
  | newSlotsOver (name : String) (slotBytes : Nat) (view : String) (firstHalf : Bool)
  | slots (object : String) (action : SlotAction)
  /-- The ring has the given length, or the one of a configuration. -/
  | newStream (name carrier : String) (ring : Nat ⊕ String)
  | stream (object : String) (action : StreamAction)
  | newRpc (name carrier : String) (standard : Bool) (pageSize : Option Nat) (config : Option String)
  /-- The object is a party of calls, or a directory with the service to use. -/
  | rpc (object : String) (service : Service) (action : RpcAction)
  | newDirectory (name init : String)
  | directory (object : String) (action : DirectoryAction)

/-- One step, with what the others do at each of its waits. -/
inductive Step where
  | mk (action : Action) (turns : List (List Step))

end Conduit.Script

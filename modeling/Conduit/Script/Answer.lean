/-
# What a script answers

Each step is answered by its reply or by why it was refused, by the state that
the object is left in, by the calls that handlers answered, and by the answers to
the steps that the others took.
-/

import Conduit.Call.Rpc
import Conduit.Config

namespace Conduit.Script

/-- A call that a handler answered. -/
structure Invocation where
  /-- The message type. -/
  type : MessageType
  /-- The arguments. -/
  args : List Value
  deriving DecidableEq

/-- What a step gives. -/
inductive Reply where
  | done
  | nothing
  | absent
  | slot (cap : Cap)
  | pair (a b : Cap)
  | mapped (bytes : Nat)
  | pending (count : Nat)
  | stats (syncSends recvSlots : Nat)
  | view (view : View)
  | halves (low high : View)
  | word (word : UInt64)
  | written (fits : Bool)
  | bytes (found : Option (List UInt8)) (length : Nat)
  | string (bytes : List UInt8)
  | description (text : String)
  | rings (count : Nat)
  | taken (rung : Bool) (count : Nat)
  | letter (letter : Letter)
  | canRecv (waiting : Bool)
  | event (given : Bool)
  | home (cap : Cap)
  | shape (slotBytes payloadWords slots : Nat)
  | sent (accepted : Bool)
  | words (found : Option (List UInt64)) (limit : Nat)
  | notified (rung : Bool)
  | pinged (here there : Bool)
  | got (count : Nat)
  | party (hasEndpoint : Bool) (standard : Option (Except Error Unit))
  | binding (binding : Binding)
  | values (rets : List Value)
  | dispatch (outcome : Dispatch)
  | ram (cap : Cap) (bytes : UInt64)
  | character (c : UInt8)
  | text (text : String)
  | process (pid : UInt64)
  | processName (name : String)
  | processes (pids : List UInt64)
  | overEndpoint (yes : Bool)
  | dedicated (yes : Bool)
  | channel (cap : Option Cap)
  | notReplaced
  | replaced (cap : Option Cap)

/-- Why a step is refused. -/
inductive Refusal where
  /-- The operation failed. -/
  | failed (error : Error)
  /-- The kernel refused. -/
  | kernel (error : ChannelError)
  /-- A configuration is wrong. -/
  | config (error : ConfigError)
  /-- The step names something that is not there. -/
  | unknown

/-- The state that an object is left in. -/
inductive Status where
  | endpoint (peer : Option Cap) (pending : Nat)
  | slots (canReceive : Bool)
  | stream (closed : Bool) (buffered : Nat)
  | rpc (outstanding : Bool)

/-- How a step ends. -/
inductive Outcome where
  | replied (reply : Reply)
  | refused (refusal : Refusal)
  | halted (halt : Halt)

/-- The answer to a step. -/
inductive Answer where
  | mk (outcome : Outcome) (buffer : Option (List UInt8)) (status : Option Status)
      (handled : List Invocation) (yields : List (List Answer))

end Conduit.Script

/-
# Errors

`ChannelError` lists the causes for which the kernel refuses an operation on an
endpoint, `Error` those for which an operation on a channel fails. A refusal of
the kernel becomes a failure of the channel by `Error.ofChannel`. Each cause has
one wording, its `message`.
-/

import Conduit.MessageType

namespace Conduit

/-- Why the kernel refuses an operation. -/
inductive ChannelError where
  /-- The receiver's queue is full; the sender tries again. -/
  | transient
  /-- The endpoint has no peer. -/
  | notConnected
  /-- No message is queued. -/
  | noMessage
  /-- The peer does not exist. -/
  | noSuchEndpoint
  /-- The capability names no object of the expected kind. -/
  | invalidCap
  /-- No slot is left. -/
  | noSpace
  deriving DecidableEq

namespace ChannelError

/-- Tells whether trying again may help. -/
def isTransient : ChannelError → Bool
  | transient => true
  | _ => false

/-- The wording of a refusal. -/
def message : ChannelError → String
  | transient => "endpoint buffer full"
  | notConnected => "endpoint not connected"
  | noMessage => "no message pending"
  | noSuchEndpoint => "no such endpoint"
  | invalidCap => "invalid capability"
  | noSpace => "out of capability space"

theorem isTransient_iff (e : ChannelError) : e.isTransient = true ↔ e = transient := by
  cases e <;> simp [isTransient]

end ChannelError

/-- Why an operation on a channel fails. -/
inductive Error where
  /-- The channel has no peer. -/
  | notConnected
  /-- A message is longer than the buffer it is received into. -/
  | overflow
  /-- Nobody serves requests of this type. -/
  | noHandler (type : MessageType)
  /-- The values cannot travel in one message. -/
  | notImplemented
  /-- A size cannot be used for a channel. -/
  | invalidSize
  /-- The type has no binding. -/
  | unknownBinding (type : MessageType)
  /-- The values are not of the kinds that the binding lists. -/
  | argMismatch (type : MessageType)
  /-- A call received something other than its reply. -/
  | unexpectedReply (expected got : UInt64)
  /-- The reply to an earlier call is still owed. -/
  | callInProgress
  /-- The channel is notified already. -/
  | alreadyPinged
  /-- A string travels without a buffer page. -/
  | noBufferPage (type : MessageType)
  /-- A string does not fit where it travels. -/
  | stringTooLong
  /-- The stream is closed. -/
  | closed
  /-- The kernel refused. -/
  | kernel (cause : ChannelError)
  deriving DecidableEq

namespace Error

/-- The failure that a refusal of the kernel causes. -/
def ofChannel : ChannelError → Error
  | .notConnected => notConnected
  | cause => kernel cause

/-- The wording of a failure. -/
def message : Error → String
  | notConnected => "channel has no remote endpoint"
  | overflow => "fragment does not fit the receive buffer"
  | noHandler t => "no handler registered for message type " ++ toString t
  | notImplemented => "binding exceeds the simple calling convention"
  | invalidSize => "invalid channel size"
  | unknownBinding t => "no binding registered for message type " ++ toString t
  | argMismatch t => "values do not match the binding for message type " ++ toString t
  | unexpectedReply expected got =>
      "expected reply tag " ++ Word.toHex expected ++ ", received " ++ Word.toHex got
  | callInProgress => "a call is already outstanding on this channel"
  | alreadyPinged => "channel is already in pinged mode"
  | noBufferPage t => "no buffer page mapped for message type " ++ toString t
  | stringTooLong => "string does not fit the buffer page"
  | closed => "channel closed"
  | kernel cause => "kernel rejected channel operation: " ++ cause.message

end Error

end Conduit

/-
# Capabilities and the messages that carry them

A capability names a kernel object by its slot. A message of a capability
channel is exactly four words and at most one capability.
-/

import Conduit.Word

namespace Conduit

/-- A reference to a kernel object. -/
structure Cap where
  /-- The slot that names the object. -/
  slot : UInt32
  deriving DecidableEq

/-- A capability is written with its slot number. -/
instance : ToString Cap := ⟨fun cap => "cap#" ++ toString cap.slot.toNat⟩

/-- How a message is sent. -/
structure SendFlags where
  /-- The receiver gets the processor after the message is queued. -/
  handOff : Bool
  /-- The sender waits until the receiver acknowledges. -/
  sync : Bool
  deriving DecidableEq

namespace SendFlags

/-- Neither flag. -/
def none : SendFlags := ⟨false, false⟩

/-- The flags of an ordinary send. -/
def standard : SendFlags := ⟨true, false⟩

/-- The same flags, with acknowledgement. -/
def withSync (flags : SendFlags) : SendFlags := { flags with sync := true }

/-- The flags as bits: hand-off is bit 0 and acknowledgement is bit 1. -/
def bits (flags : SendFlags) : UInt32 :=
  (if flags.handOff then 1 else 0) ||| (if flags.sync then 2 else 0)

/-- The flags with these bits, if no other bit is set. -/
def ofBits? (bits : UInt32) : Option SendFlags :=
  if bits ≤ 3 then some ⟨bits &&& 1 != 0, bits &&& 2 != 0⟩ else Option.none

theorem ofBits?_bits (flags : SendFlags) : ofBits? flags.bits = some flags := by
  obtain ⟨handOff, sync⟩ := flags
  cases handOff <;> cases sync <;> decide

end SendFlags

/-- The number of words in a message of a capability channel. -/
abbrev Letter.width : Nat := 4

/-- A message of a capability channel. -/
structure Letter where
  /-- The payload; the first word is by convention a type or a length. -/
  words : Vector UInt64 Letter.width
  /-- The capability that travels with the message. -/
  cap : Option Cap
  deriving DecidableEq

/-- The first four of the words, with zeros for those that are missing. -/
def Letter.fit (words : List UInt64) : Vector UInt64 Letter.width :=
  Vector.ofFn fun i => words.getD i 0

end Conduit

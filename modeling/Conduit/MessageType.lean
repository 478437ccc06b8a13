/-
# Message types

The first word of a request names its type. The reply to a request carries the
same word with the top bit set, so a request and a reply are told apart by that
bit alone, and a reply determines the request it answers
(`responseTag_injective`).
-/

import Conduit.Word

namespace Conduit

/-- The type of a message. -/
structure MessageType where
  /-- The number that stands in the first word of a request. -/
  code : UInt64
  deriving DecidableEq

namespace MessageType

/-- The bit that marks the first word of a reply. -/
def responseBit : UInt64 := 0x8000000000000000

/-- The first word of the reply to a request of this type. -/
def responseTag (t : MessageType) : UInt64 := t.code ||| responseBit

/-- Tells whether a first word belongs to a reply. -/
def isResponse (tag : UInt64) : Bool := tag &&& responseBit != 0

/-- A message type is written as its number. -/
instance : ToString MessageType := ⟨fun t => toString t.code.toNat⟩

/-- The first word of every reply is recognised as one. -/
theorem isResponse_responseTag (t : MessageType) : isResponse t.responseTag = true := by
  rw [isResponse, responseTag, Word.or_and_right_self]
  rfl

/-- Among the types that are no replies themselves, the reply determines the type. -/
theorem responseTag_injective {s t : MessageType} (hs : isResponse s.code = false)
    (ht : isResponse t.code = false) (h : s.responseTag = t.responseTag) : s = t := by
  obtain ⟨a⟩ := s
  obtain ⟨b⟩ := t
  rw [isResponse, bne_eq_false_iff_eq] at hs ht
  exact congrArg mk (Word.or_right_cancel hs ht h)

end MessageType

end Conduit

/-
# Bindings

A binding says of which kinds the arguments and the results of a message type
are. A binding is simple if both travel in one message of a capability channel:
at most three words or strings, and at most one capability.
-/

import Conduit.Call.Value

namespace Conduit

/-- The shape of the calls of one message type. -/
structure Binding where
  /-- The message type. -/
  type : MessageType
  /-- The kinds of the arguments, in order. -/
  args : List Kind
  /-- The kinds of the results, in order. -/
  rets : List Kind
  deriving DecidableEq

namespace Binding

/-- The words of a message that are left for values. -/
def valueWords : Nat := Letter.width - 1

/-- Tells whether values of these kinds travel in one message. -/
def fits (kinds : List Kind) : Bool :=
  kinds.length - kinds.count .cap ≤ valueWords && kinds.count .cap ≤ 1

/-- Tells whether both directions travel in one message. -/
def isSimple (b : Binding) : Bool := fits b.args && fits b.rets

/-- Tells whether a string travels in either direction. -/
def usesStrings (b : Binding) : Bool := (b.args ++ b.rets).contains .str

/-- Tells whether a capability travels in either direction. -/
def usesCaps (b : Binding) : Bool := (b.args ++ b.rets).contains .cap

end Binding

end Conduit

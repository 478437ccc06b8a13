/-
# Values and their kinds

What a call passes and gives back: words, strings and capabilities.
-/

import Conduit.Capability
import Conduit.Error

namespace Conduit

/-- The kind of a value. -/
inductive Kind where
  /-- One word. -/
  | word
  /-- A string. -/
  | str
  /-- A capability. -/
  | cap
  deriving DecidableEq

/-- What a call passes or gives back. -/
inductive Value where
  /-- One word. -/
  | word (w : UInt64)
  /-- A string. -/
  | str (s : String)
  /-- A capability. -/
  | cap (c : Cap)
  deriving DecidableEq

namespace Value

/-- The kind of a value. -/
def kind : Value → Kind
  | word _ => .word
  | str _ => .str
  | cap _ => .cap

/-- The word, if the value is one. -/
def asWord : Value → Option UInt64
  | word w => some w
  | _ => none

/-- The string, if the value is one. -/
def asStr : Value → Option String
  | str s => some s
  | _ => none

/-- The capability, if the value is one. -/
def asCap : Value → Option Cap
  | cap c => some c
  | _ => none

/-- Passes if the values have the kinds that are listed for a message type. -/
def check (t : MessageType) (kinds : List Kind) (values : List Value) : Except Error Unit :=
  if values.map kind = kinds then .ok () else .error (.argMismatch t)

end Value

end Conduit

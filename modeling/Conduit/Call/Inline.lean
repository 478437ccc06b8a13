/-
# Values in a message without a page

Over shared memory the first word of a message is its tag, a word value takes
one word, and a string takes one word for its length in bytes and as many as its
bytes need. Capabilities cannot travel.
-/

import Conduit.Call.Value
import Conduit.Text.Utf8
import Conduit.Transport

namespace Conduit.Inline

/-- The words that a string takes besides its length. -/
def body (bytes : List UInt8) : List UInt64 := Word.pack (Word.countFor bytes.length) bytes

/-- The words after the given ones that hold the values, at most `width` in all. -/
def addAll (width : Nat) : List Value → List UInt64 → Except Error (List UInt64)
  | [], words => .ok words
  | .word w :: rest, words =>
      if words.length < width then addAll width rest (words ++ [w]) else .error .notImplemented
  | .str s :: rest, words =>
      let bytes := Utf8.encode s
      if words.length + 1 + Word.countFor bytes.length > width then .error .stringTooLong
      else addAll width rest (words ++ UInt64.ofNat bytes.length :: body bytes)
  | .cap _ :: _, _ => .error .notImplemented

/-- The message of `width` words with this tag and these values. -/
def encode (tag : UInt64) (values : List Value) (width : Nat) : Except Error Message := do
  let words ← addAll width values [tag]
  return { words := words ++ List.replicate (width - words.length) 0 }

/-- Reads values of these kinds from the words that are not read yet. -/
def read (t : MessageType) : List Kind → List UInt64 → Except Error (List Value)
  | [], _ => .ok []
  | .word :: kinds, words =>
      match words with
      | [] => .error (.argMismatch t)
      | w :: words => (read t kinds words).map (.word w :: ·)
  | .str :: kinds, words =>
      match words with
      | [] => .error (.argMismatch t)
      | length :: words =>
          let count := Word.countFor length.toNat
          if words.length < count then .error (.argMismatch t)
          else
            match Utf8.decode? ((Word.unpack (words.take count)).take length.toNat) with
            | none => .error (.argMismatch t)
            | some s => (read t kinds (words.drop count)).map (.str s :: ·)
  | .cap :: _, _ => .error .notImplemented

/-- The values of these kinds in a message. -/
def decode (t : MessageType) (kinds : List Kind) (message : Message) :
    Except Error (List Value) :=
  read t kinds message.words.tail

end Conduit.Inline

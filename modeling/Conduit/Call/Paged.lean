/-
# Values in a message with a buffer page

Over a capability channel the first word of a message is its tag, and each word
value takes one of the other three words. A string is copied, with a zero byte
behind it, into a page that both ends have mapped, and its offset takes a word;
the strings of a message lie behind each other. The capability travels in the
message's own place for one.
-/

import Conduit.Call.Value
import Conduit.Memory
import Conduit.Text.Utf8
import Conduit.Transport

namespace Conduit.Paged

/-- A message in the making. -/
structure Draft where
  /-- The words so far, the tag first. -/
  words : List UInt64
  /-- The capability, once there is one. -/
  cap : Option Cap := none
  /-- The first unused byte of the page. -/
  offset : Nat := 0

/-- The draft with one more word, if there is room. -/
def Draft.push (d : Draft) (w : UInt64) : Except Error Draft :=
  if d.words.length < Letter.width then .ok { d with words := d.words ++ [w] }
  else .error .notImplemented

/-- The finished message. -/
def Draft.message (d : Draft) : Message :=
  { words := (Letter.fit d.words).toList, cap := d.cap }

/-- Copies a string with a zero byte behind it into a page; tells whether it fits. -/
def putString (m : Memory) (page : View) (offset : Nat) (bytes : List UInt8) :
    Except Panic (Bool × Memory) :=
  if offset + bytes.length + 1 > page.bytes then .ok (false, m)
  else do
    let (fits, m) ← m.writeBytes page offset bytes
    if fits then m.writeBytes page (offset + bytes.length) [0] else return (false, m)

/-- Adds one value to a message. The page is written even if the message turns out
to have no room for the offset. -/
def add (t : MessageType) (page : Option View) (value : Value) (d : Draft) (m : Memory) :
    Except Panic (Except Error Draft × Memory) :=
  match value with
  | .word w => .ok (d.push w, m)
  | .str s =>
      match page with
      | none => .ok (.error (.noBufferPage t), m)
      | some page =>
          let bytes := Utf8.encode s
          if bytes.contains 0 then .ok (.error (.argMismatch t), m)
          else do
            let (fits, m) ← putString m page d.offset bytes
            if fits then
              let pushed := d.push (UInt64.ofNat d.offset)
              return (pushed.map ({ · with offset := d.offset + bytes.length + 1 }), m)
            else return (.error .stringTooLong, m)
  | .cap c =>
      match d.cap with
      | none => .ok (.ok { d with cap := some c }, m)
      | some _ => .ok (.error .notImplemented, m)

/-- Adds values to a message, up to the first that cannot be added. -/
def addAll (t : MessageType) (page : Option View) :
    List Value → Draft → Memory → Except Panic (Except Error Draft × Memory)
  | [], d, m => .ok (.ok d, m)
  | value :: rest, d, m => do
      match ← add t page value d m with
      | (.error e, m) => return (.error e, m)
      | (.ok d, m) => addAll t page rest d m

/-- The message with this tag and these values. -/
def encode (t : MessageType) (tag : UInt64) (values : List Value) (page : Option View)
    (m : Memory) : Except Panic (Except Error Message × Memory) := do
  let (draft, m) ← addAll t page values { words := [tag] } m
  return (draft.map Draft.message, m)

/-- Reads values of these kinds: the words that are not read yet, and the
capability unless it was given out already. -/
def read (t : MessageType) (page : Option View) (m : Memory) :
    List Kind → List UInt64 → Option Cap → Except Panic (Except Error (List Value))
  | [], _, _ => .ok (.ok [])
  | .word :: kinds, words, cap =>
      match words with
      | [] => .ok (.error .notImplemented)
      | w :: words => do
          let rest ← read t page m kinds words cap
          return rest.map (.word w :: ·)
  | .str :: kinds, words, cap =>
      match words with
      | [] => .ok (.error .notImplemented)
      | w :: words =>
          match page with
          | none => .ok (.error (.noBufferPage t))
          | some view => do
              let bytes ← m.readString view w.toNat
              match bytes.bind Utf8.decode? with
              | none => return .error (.argMismatch t)
              | some s =>
                  let rest ← read t page m kinds words cap
                  return rest.map (.str s :: ·)
  | .cap :: kinds, words, cap =>
      match cap with
      | none => .ok (.error (.argMismatch t))
      | some c => do
          let rest ← read t page m kinds words none
          return rest.map (.cap c :: ·)

/-- The values of these kinds in a message. -/
def decode (t : MessageType) (kinds : List Kind) (message : Message) (page : Option View)
    (m : Memory) : Except Panic (Except Error (List Value)) :=
  read t page m kinds message.words.tail message.cap

end Conduit.Paged

/-
# Shared memory

Memory is a list of blocks of words, and a block never changes its size. A view
is a run of words inside one block; several views may show the same words, and
each party of a channel works through views of its own. A view is read and
written by words, or by bytes at any offset, or as a string that a zero byte
ends.

* `View.window`, `View.splitAt` — views inside a view, at word boundaries.
* `load`, `store` — one word; an index outside the view is a panic.
* `writeBytes`, `readBytes`, `readString` — bytes; a range outside the view is
  refused and leaves everything as it was.
-/

import Conduit.Panic
import Conduit.Word

namespace Conduit

/-- A run of words in a block of memory. -/
structure View where
  /-- The number of the block. -/
  block : Nat
  /-- The first word of the block that the view shows. -/
  start : Nat
  /-- The number of words that the view shows. -/
  words : Nat
  deriving DecidableEq

namespace View

/-- The length in bytes. -/
def bytes (v : View) : Nat := v.words * Word.size

/-- Tells whether the view shows no word. -/
def isEmpty (v : View) : Bool := v.words == 0

/-- The view of `length` bytes from byte `offset` on. Both must be multiples of
the word size, and the range must lie inside. -/
def window (v : View) (offset length : Nat) : Option View :=
  if offset % Word.size ≠ 0 ∨ length % Word.size ≠ 0 then none
  else if offset / Word.size + length / Word.size > v.words then none
  else some ⟨v.block, v.start + offset / Word.size, length / Word.size⟩

/-- The views before and after byte `mid`. -/
def splitAt (v : View) (mid : Nat) : Option (View × View) := do
  let low ← v.window 0 mid
  if mid ≤ v.bytes then
    let high ← v.window mid (v.bytes - mid)
    return (low, high)
  else none

/-- Tells whether a range of bytes lies inside the view. -/
def covers (v : View) (offset length : Nat) : Bool := offset + length ≤ v.bytes

/-- A view is described by its first word and its length in words. -/
def describe (v : View) : String :=
  "MappedFrame \x7b start: " ++ toString v.start ++ ", len: " ++ toString v.words ++ " \x7d"

end View

/-- All memory that the parties may share. -/
structure Memory where
  /-- The blocks, in the order of their allocation. -/
  blocks : Array (Array UInt64) := #[]

namespace Memory

/-- The number of words from which on a block cannot be addressed. -/
def wordLimit : Nat := 0x1000000000000000

/-- A new zeroed block of at least this many bytes, and the view of all of it. -/
def allocate (m : Memory) (bytes : Nat) : Except Panic (View × Memory) :=
  let words := Word.countFor bytes
  if words < wordLimit then
    .ok (⟨m.blocks.size, 0, words⟩, { m with blocks := m.blocks.push (Array.replicate words 0) })
  else .error .tooLarge

/-- The word at this index of a view. -/
def load (m : Memory) (v : View) (index : Nat) : Except Panic UInt64 :=
  if index < v.words then
    match m.blocks[v.block]? with
    | none => .error .outOfRange
    | some block =>
        match block[v.start + index]? with
        | none => .error .outOfRange
        | some word => .ok word
  else .error (.outsideView index v.words)

/-- The memory with the word at this index of a view replaced. -/
def store (m : Memory) (v : View) (index : Nat) (word : UInt64) : Except Panic Memory :=
  if index < v.words then
    if v.start + index < (m.blocks.getD v.block #[]).size then
      .ok { m with blocks := m.blocks.modify v.block (·.setIfInBounds (v.start + index) word) }
    else .error .outOfRange
  else .error (.outsideView index v.words)

/-- The memory with the words from this index of a view on replaced. -/
def storeAll (m : Memory) (v : View) (index : Nat) : List UInt64 → Except Panic Memory
  | [] => .ok m
  | word :: rest => do
      let m ← m.store v index word
      m.storeAll v (index + 1) rest

/-- The words from this index of a view on. -/
def loadAll (m : Memory) (v : View) (index : Nat) : (count : Nat) → Except Panic (List UInt64)
  | 0 => .ok []
  | count + 1 => do
      let word ← m.load v index
      let rest ← m.loadAll v (index + 1) count
      return word :: rest

/-- The byte at this offset of a view. -/
def byteAt (m : Memory) (v : View) (offset : Nat) : Except Panic UInt8 := do
  let word ← m.load v (offset / Word.size)
  return Word.byte word (offset % Word.size)

/-- The memory with the byte at this offset of a view replaced. -/
def setByteAt (m : Memory) (v : View) (offset : Nat) (b : UInt8) : Except Panic Memory := do
  let word ← m.load v (offset / Word.size)
  m.store v (offset / Word.size) (Word.setByte word (offset % Word.size) b)

/-- The memory with the bytes from this offset of a view on replaced. -/
def putBytes (m : Memory) (v : View) (offset : Nat) : List UInt8 → Except Panic Memory
  | [] => .ok m
  | b :: rest => do
      let m ← m.setByteAt v offset b
      m.putBytes v (offset + 1) rest

/-- The bytes from this offset of a view on. -/
def getBytes (m : Memory) (v : View) (offset : Nat) : (count : Nat) → Except Panic (List UInt8)
  | 0 => .ok []
  | count + 1 => do
      let b ← m.byteAt v offset
      let rest ← m.getBytes v (offset + 1) count
      return b :: rest

/-- Writes bytes at an offset of a view; tells whether they fit. -/
def writeBytes (m : Memory) (v : View) (offset : Nat) (data : List UInt8) :
    Except Panic (Bool × Memory) :=
  if v.covers offset data.length then do
    let m ← m.putBytes v offset data
    return (true, m)
  else .ok (false, m)

/-- The bytes in a range of a view, if it lies inside. -/
def readBytes (m : Memory) (v : View) (offset length : Nat) : Except Panic (Option (List UInt8)) :=
  if v.covers offset length then do
    let bytes ← m.getBytes v offset length
    return some bytes
  else .ok none

/-- The bytes before the first zero byte among the next `count` ones. -/
def stringWithin (m : Memory) (v : View) (offset : Nat) :
    (count : Nat) → Except Panic (Option (List UInt8))
  | 0 => .ok none
  | count + 1 => do
      let b ← m.byteAt v offset
      if b = 0 then return some []
      let rest ← m.stringWithin v (offset + 1) count
      return rest.map (b :: ·)

/-- The bytes from an offset of a view up to the first zero byte, if there is one. -/
def readString (m : Memory) (v : View) (offset : Nat) : Except Panic (Option (List UInt8)) :=
  m.stringWithin v offset (v.bytes - offset)

end Memory

end Conduit

/-
# Views with every step checked

The places of a view are machine words, and so are the offsets that it is asked for, which may be
any. Here each operation on a view computes as a program on machine words does: where the sum of
an offset and a length may not fit, it asks first, and every other sum, product and shift panics
if it overflows. A view whose end is below the limit of what can be addressed (`View.Short`) makes
none of these overflow, whatever it is asked for, and the operations are the plain ones.
-/

import Conduit.Proofs.Checked
import Conduit.Proofs.Memory.Access

namespace Conduit

open Checked

/-! ### Views -/

namespace View

/-- The view ends where a block can still be addressed. -/
def Short (v : View) : Prop := v.start + v.words < Memory.wordLimit

/-- The length in bytes. -/
def bytesChecked (v : View) : Except Panic Nat := times v.words Word.size

/-- Tells whether a range of bytes lies inside the view. -/
def coversChecked (v : View) (offset length : Nat) : Except Panic Bool :=
  match plus? offset length with
  | none => .ok false
  | some stop => do return stop ≤ (← v.bytesChecked)

/-- The view of `length` bytes from byte `offset` on. -/
def windowChecked (v : View) (offset length : Nat) : Except Panic (Option View) :=
  if offset % Word.size ≠ 0 ∨ length % Word.size ≠ 0 then .ok none
  else
    match plus? (offset / Word.size) (length / Word.size) with
    | none => .ok none
    | some stop =>
        if stop > v.words then .ok none
        else do
          let start ← plus v.start (offset / Word.size)
          return some ⟨v.block, start, length / Word.size⟩

/-- The views before and after byte `mid`. -/
def splitAtChecked (v : View) (mid : Nat) : Except Panic (Option (View × View)) := do
  match ← v.windowChecked 0 mid with
  | none => return none
  | some low =>
      match minus? (← v.bytesChecked) mid with
      | none => return none
      | some rest => return (← v.windowChecked mid rest).map fun high => (low, high)

variable {v w : View} {offset length : Nat}

theorem Short.inside (short : v.Short) (part : w.Inside v) : w.Short :=
  Nat.lt_of_le_of_lt part.stop short

theorem Short.bytes (short : v.Short) : v.bytes < limit := by
  unfold Short Memory.wordLimit at short
  unfold View.bytes Word.size limit
  omega

theorem bytesChecked_eq (short : v.Short) : v.bytesChecked = .ok v.bytes := times_ok short.bytes

/-- A sum that does not fit a machine word lies outside every view. -/
theorem coversChecked_eq (short : v.Short) (offset length : Nat) :
    v.coversChecked offset length = .ok (v.covers offset length) := by
  have bytes := short.bytes
  unfold coversChecked plus? covers
  by_cases fits : offset + length < limit
  · rw [if_pos fits, bytesChecked_eq short]
    rfl
  · rw [if_neg fits, decide_eq_false (by omega)]

theorem windowChecked_eq (short : v.Short) (offset length : Nat) :
    v.windowChecked offset length = .ok (v.window offset length) := by
  unfold Short Memory.wordLimit at short
  unfold windowChecked window
  by_cases unaligned : offset % Word.size ≠ 0 ∨ length % Word.size ≠ 0
  · rw [if_pos unaligned, if_pos unaligned]
  rw [if_neg unaligned, if_neg unaligned]
  by_cases outside : offset / Word.size + length / Word.size > v.words
  · rw [if_pos outside, plus?]
    by_cases fits : offset / Word.size + length / Word.size < limit
    · rw [if_pos fits]
      exact if_pos outside
    · rw [if_neg fits]
  · have fits : offset / Word.size + length / Word.size < limit := by
      unfold limit
      omega
    have start : plus v.start (offset / Word.size) = .ok (v.start + offset / Word.size) := by
      have part := Nat.le_add_right (offset / Word.size) (length / Word.size)
      apply plus_ok
      unfold limit
      omega
    rw [if_neg outside, plus?, if_pos fits]
    simp only [if_neg outside, start]
    rfl

theorem splitAtChecked_eq (short : v.Short) (mid : Nat) :
    v.splitAtChecked mid = .ok (v.splitAt mid) := by
  unfold splitAtChecked splitAt
  rw [windowChecked_eq short, bytesChecked_eq short]
  cases v.window 0 mid with
  | none => rfl
  | some low =>
      by_cases inside : mid ≤ v.bytes
      · simp only [bind, Except.bind, minus?, Option.bind, if_pos inside, windowChecked_eq short]
        cases v.window mid (v.bytes - mid) with
        | none => rfl
        | some high => rfl
      · simp only [bind, Except.bind, minus?, Option.bind, if_neg inside]
        rfl

end View

/-! ### Words and bytes -/

/-- The distance of byte `i` from the low end of its word, by which a word can be shifted. -/
def Word.shiftChecked (i : Nat) : Except Panic UInt64 := do
  let bits ← times i 8
  if bits < 64 then return UInt64.ofNat bits else .error .outOfRange

theorem Word.shiftChecked_eq {i : Nat} (inside : i < size) : shiftChecked i = .ok (shift i) := by
  have bits : i * 8 < 64 := by
    unfold size at inside
    omega
  have fits : i * 8 < limit := by
    unfold limit
    omega
  rw [shiftChecked, times_ok fits]
  simp only [bind, Except.bind, if_pos bits, shift, Nat.mul_comm 8]
  rfl

namespace Memory

/-- The word at this index of a view. -/
def loadChecked (m : Memory) (v : View) (index : Nat) : Except Panic UInt64 :=
  if index < v.words then do
    let place ← plus v.start index
    match m.blocks[v.block]? with
    | none => .error .outOfRange
    | some block =>
        match block[place]? with
        | none => .error .outOfRange
        | some word => .ok word
  else .error (.outsideView index v.words)

/-- The memory with the word at this index of a view replaced. -/
def storeChecked (m : Memory) (v : View) (index : Nat) (word : UInt64) : Except Panic Memory :=
  if index < v.words then do
    let place ← plus v.start index
    if place < (m.blocks.getD v.block #[]).size then
      .ok { m with blocks := m.blocks.modify v.block (·.setIfInBounds place word) }
    else .error .outOfRange
  else .error (.outsideView index v.words)

/-- The byte at this offset of a view. -/
def byteAtChecked (m : Memory) (v : View) (offset : Nat) : Except Panic UInt8 := do
  let shift ← Word.shiftChecked (offset % Word.size)
  let word ← m.loadChecked v (offset / Word.size)
  return (word >>> shift).toUInt8

/-- The memory with the byte at this offset of a view replaced. -/
def setByteAtChecked (m : Memory) (v : View) (offset : Nat) (b : UInt8) :
    Except Panic Memory := do
  let shift ← Word.shiftChecked (offset % Word.size)
  let word ← m.loadChecked v (offset / Word.size)
  m.storeChecked v (offset / Word.size) ((word &&& ~~~(0xff <<< shift)) ||| (b.toUInt64 <<< shift))

/-- The memory with the bytes at an offset of a view replaced, of which `index` are already. -/
def putBytesChecked (m : Memory) (v : View) (offset index : Nat) :
    List UInt8 → Except Panic Memory
  | [] => .ok m
  | b :: rest => do
      let m ← m.setByteAtChecked v (← plus offset index) b
      m.putBytesChecked v offset (index + 1) rest

/-- The bytes at an offset of a view behind the first `index` ones. -/
def getBytesChecked (m : Memory) (v : View) (offset index : Nat) :
    (count : Nat) → Except Panic (List UInt8)
  | 0 => .ok []
  | count + 1 => do
      let b ← m.byteAtChecked v (← plus offset index)
      let rest ← m.getBytesChecked v offset (index + 1) count
      return b :: rest

/-- Writes bytes at an offset of a view; tells whether they fit. -/
def writeBytesChecked (m : Memory) (v : View) (offset : Nat) (data : List UInt8) :
    Except Panic (Bool × Memory) := do
  if ← v.coversChecked offset data.length then
    let m ← m.putBytesChecked v offset 0 data
    return (true, m)
  else return (false, m)

/-- The bytes in a range of a view, if it lies inside. -/
def readBytesChecked (m : Memory) (v : View) (offset length : Nat) :
    Except Panic (Option (List UInt8)) := do
  if ← v.coversChecked offset length then
    let bytes ← m.getBytesChecked v offset 0 length
    return some bytes
  else return none

/-- The bytes before the first zero byte among the next `count` ones. -/
def stringWithinChecked (m : Memory) (v : View) (offset : Nat) :
    (count : Nat) → Except Panic (Option (List UInt8))
  | 0 => .ok none
  | count + 1 => do
      let b ← m.byteAtChecked v offset
      if b = 0 then return some []
      let rest ← m.stringWithinChecked v (offset + 1) count
      return rest.map (b :: ·)

/-- The bytes from an offset of a view up to the first zero byte, if there is one. -/
def readStringChecked (m : Memory) (v : View) (offset : Nat) :
    Except Panic (Option (List UInt8)) := do
  m.stringWithinChecked v offset ((← v.bytesChecked) - offset)

variable {m : Memory} {v : View}

theorem loadChecked_eq (short : v.Short) (index : Nat) : m.loadChecked v index = m.load v index := by
  unfold View.Short wordLimit at short
  unfold loadChecked load
  by_cases inside : index < v.words
  · have place : plus v.start index = .ok (v.start + index) := by
      apply plus_ok
      unfold limit
      omega
    rw [if_pos inside, if_pos inside, place]
    rfl
  · rw [if_neg inside, if_neg inside]

theorem storeChecked_eq (short : v.Short) (index : Nat) (word : UInt64) :
    m.storeChecked v index word = m.store v index word := by
  unfold View.Short wordLimit at short
  unfold storeChecked store
  by_cases inside : index < v.words
  · have place : plus v.start index = .ok (v.start + index) := by
      apply plus_ok
      unfold limit
      omega
    rw [if_pos inside, if_pos inside, place]
    rfl
  · rw [if_neg inside, if_neg inside]

theorem byteAtChecked_eq (short : v.Short) (offset : Nat) :
    m.byteAtChecked v offset = m.byteAt v offset := by
  rw [byteAtChecked, Word.shiftChecked_eq (mod_lt_size offset), loadChecked_eq short]
  rfl

theorem setByteAtChecked_eq (short : v.Short) (offset : Nat) (b : UInt8) :
    m.setByteAtChecked v offset b = m.setByteAt v offset b := by
  rw [setByteAtChecked, Word.shiftChecked_eq (mod_lt_size offset), loadChecked_eq short]
  simp only [bind, Except.bind, storeChecked_eq short]
  rfl

theorem putBytesChecked_eq (short : v.Short) {offset index : Nat} {bytes : List UInt8}
    (fits : offset + index + bytes.length ≤ v.bytes) :
    m.putBytesChecked v offset index bytes = m.putBytes v (offset + index) bytes := by
  have few := short.bytes
  induction bytes generalizing m index with
  | nil => rfl
  | cons b bytes ih =>
      rw [List.length_cons] at fits
      rw [putBytesChecked, putBytes, plus_ok (by omega)]
      simp only [bind, Except.bind, setByteAtChecked_eq short]
      cases m.setByteAt v (offset + index) b with
      | error e => rfl
      | ok m => exact ih (by omega)

theorem getBytesChecked_eq (short : v.Short) {offset index count : Nat}
    (fits : offset + index + count ≤ v.bytes) :
    m.getBytesChecked v offset index count = m.getBytes v (offset + index) count := by
  have few := short.bytes
  induction count generalizing index with
  | zero => rfl
  | succ count ih =>
      have rest : m.getBytesChecked v offset (index + 1) count = _ := ih (by omega)
      rw [getBytesChecked, getBytes, plus_ok (by omega), rest]
      simp only [bind, Except.bind, byteAtChecked_eq short]
      rfl

theorem stringWithinChecked_eq (short : v.Short) (offset count : Nat) :
    m.stringWithinChecked v offset count = m.stringWithin v offset count := by
  induction count generalizing offset with
  | zero => rfl
  | succ count ih => rw [stringWithinChecked, stringWithin, byteAtChecked_eq short, ih]

theorem writeBytesChecked_eq (short : v.Short) (offset : Nat) (data : List UInt8) :
    m.writeBytesChecked v offset data = m.writeBytes v offset data := by
  rw [writeBytesChecked, writeBytes, View.coversChecked_eq short]
  simp only [bind, Except.bind]
  by_cases covered : v.covers offset data.length = true
  · have fits : offset + 0 + data.length ≤ v.bytes := of_decide_eq_true covered
    rw [if_pos covered, if_pos covered, putBytesChecked_eq short fits]
    rfl
  · rw [if_neg covered, if_neg covered]
    rfl

theorem readBytesChecked_eq (short : v.Short) (offset length : Nat) :
    m.readBytesChecked v offset length = m.readBytes v offset length := by
  rw [readBytesChecked, readBytes, View.coversChecked_eq short]
  simp only [bind, Except.bind]
  by_cases covered : v.covers offset length = true
  · have fits : offset + 0 + length ≤ v.bytes := of_decide_eq_true covered
    rw [if_pos covered, if_pos covered, getBytesChecked_eq short fits]
    rfl
  · rw [if_neg covered, if_neg covered]
    rfl

theorem readStringChecked_eq (short : v.Short) (offset : Nat) :
    m.readStringChecked v offset = m.readString v offset := by
  rw [readStringChecked, View.bytesChecked_eq short]
  exact stringWithinChecked_eq short offset (v.bytes - offset)

/-- A block that can be allocated can be addressed. -/
theorem short_allocate {bytes : Nat} {m' : Memory} (allocated : m.allocate bytes = .ok (v, m')) :
    v.Short := by
  unfold allocate at allocated
  by_cases small : Word.countFor bytes < wordLimit
  · simp only [if_pos small, Except.ok.injEq, Prod.mk.injEq] at allocated
    rw [← allocated.1, View.Short, Nat.zero_add]
    exact small
  · simp only [if_neg small] at allocated
    cases allocated

end Memory

end Conduit

/-
# Machine words and their bytes

A word is 64 bits and holds eight bytes, the least significant first. Byte
strings travel packed into words; the last word used is padded with zero bytes.

* `byte`, `setByte` — one byte of a word.
* `pack`, `unpack` — byte strings into a given number of words, and back.
-/

namespace Conduit.Word

/-- The number of bytes in a word. -/
abbrev size : Nat := 8

/-- The distance in bits of byte `i` from the low end of its word. -/
def shift (i : Nat) : UInt64 := UInt64.ofNat (8 * i)

/-- Byte `i` of a word, counted from the least significant. -/
def byte (w : UInt64) (i : Nat) : UInt8 := (w >>> shift i).toUInt8

/-- The word with byte `i` replaced. -/
def setByte (w : UInt64) (i : Nat) (b : UInt8) : UInt64 :=
  (w &&& ~~~(0xff <<< shift i)) ||| (b.toUInt64 <<< shift i)

/-- The eight bytes of a word, the least significant first. -/
def toBytes (w : UInt64) : List UInt8 := (List.range size).map (byte w)

/-- The word whose low bytes are the given ones, and whose other bytes are zero. -/
def ofBytes (bytes : List UInt8) : UInt64 :=
  bytes.foldr (fun b w => (w <<< 8) ||| b.toUInt64) 0

/-- Exactly `count` words that hold the bytes in order, padded with zeros. -/
def pack : (count : Nat) → List UInt8 → List UInt64
  | 0, _ => []
  | count + 1, bytes => ofBytes (bytes.take size) :: pack count (bytes.drop size)

/-- All bytes of the words, in order. -/
def unpack (words : List UInt64) : List UInt8 := words.flatMap toBytes

/-- The number of words that a byte string of this length needs. -/
def countFor (bytes : Nat) : Nat := (bytes + (size - 1)) / size

/-- A word in hexadecimal, lower case, with a leading `0x`. -/
def toHex (w : UInt64) : String := "0x" ++ String.ofList (Nat.toDigits 16 w.toNat)

/-- Setting bits and then masking them gives the mask. -/
theorem or_and_right_self (w mask : UInt64) : (w ||| mask) &&& mask = mask := by
  apply UInt64.eq_of_toBitVec_eq
  simp only [UInt64.toBitVec_and, UInt64.toBitVec_or]
  ext i hi
  simp only [BitVec.getElem_and, BitVec.getElem_or, Bool.and_eq_right_iff_imp, Bool.or_eq_true]
  exact Or.inr

/-- Words that lack the bits of a mask are told apart after the mask is set. -/
theorem or_right_cancel {a b mask : UInt64} (ha : a &&& mask = 0) (hb : b &&& mask = 0)
    (h : a ||| mask = b ||| mask) : a = b := by
  have ha := congrArg UInt64.toBitVec ha
  have hb := congrArg UInt64.toBitVec hb
  have h := congrArg UInt64.toBitVec h
  simp only [UInt64.toBitVec_and, UInt64.toBitVec_or] at ha hb h
  apply UInt64.eq_of_toBitVec_eq
  ext i hi
  have ha := congrArg (fun v => v.getLsbD i) ha
  have hb := congrArg (fun v => v.getLsbD i) hb
  have h := congrArg (fun v => v.getLsbD i) h
  simp at ha hb h
  grind

theorem length_pack : ∀ (count : Nat) (bytes : List UInt8), (pack count bytes).length = count
  | 0, _ => rfl
  | count + 1, bytes => by simp [pack, length_pack count]

theorem length_toBytes (w : UInt64) : (toBytes w).length = size := by simp [toBytes]

theorem length_unpack (words : List UInt64) : (unpack words).length = size * words.length := by
  induction words with
  | nil => rfl
  | cons w ws ih =>
    have hcons : unpack (w :: ws) = toBytes w ++ unpack ws := by simp [unpack]
    rw [hcons, List.length_append, length_toBytes, ih, List.length_cons, Nat.mul_succ, Nat.add_comm]

end Conduit.Word

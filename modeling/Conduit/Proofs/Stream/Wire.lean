/-
# What the messages of a stream say

`decode` reads transport messages as the receiving end does: it knows how many bytes
of the current byte string are to come, takes those that a message holds, and learns
the next length from the first word after the last byte. `decode_wireForm` says that
the messages of a byte string are read as that string and leave nothing to come,
whatever the width of a message, so padding is never read. As reading goes message
by message, what is read does not depend on which of them arrived already
(`decode_append`).
-/

import Conduit.Proofs.Memory.Bytes
import Conduit.Stream

namespace Conduit

namespace Stream

/-- The bytes that words hold when so many are to come, and how many are to come then. -/
def portion (left : UInt64) (payload : List UInt64) : List UInt8 × UInt64 :=
  let count := min left.toNat (payload.length * Word.size)
  ((Word.unpack payload).take count, left - UInt64.ofNat count)

/-- The bytes that one message holds, and how many are to come after it. -/
def scan (left : UInt64) (words : List UInt64) : List UInt8 × UInt64 :=
  if left = 0 then
    if words.headD 0 = closeMark then ([], 0) else portion (words.headD 0) words.tail
  else portion left words

/-- The bytes that messages hold, and how many are to come after them. -/
def decode (left : UInt64) : List (List UInt64) → List UInt8 × UInt64
  | [] => ([], left)
  | words :: rest =>
      let (bytes, left) := scan left words
      let (more, left) := decode left rest
      (bytes ++ more, left)

theorem decode_append (left : UInt64) (first second : List (List UInt64)) :
    decode left (first ++ second) =
      ((decode left first).1 ++ (decode (decode left first).2 second).1,
        (decode (decode left first).2 second).2) := by
  induction first generalizing left with
  | nil => rfl
  | cons words first ih => simp only [List.cons_append, decode, ih, List.append_assoc]

/-- What words hold of the bytes that are to come is no longer to come. -/
theorem length_portion (left : UInt64) (payload : List UInt64) :
    (portion left payload).1.length + (portion left payload).2.toNat = left.toNat := by
  have count : min left.toNat (payload.length * Word.size) ≤ left.toNat := Nat.min_le_left _ _
  have small := Nat.lt_of_le_of_lt count left.toNat_lt
  have cut : UInt64.ofNat (min left.toNat (payload.length * Word.size)) ≤ left := by
    rw [UInt64.le_iff_toNat_le, UInt64.toNat_ofNat_of_lt' small]
    exact count
  simp only [portion]
  rw [List.length_take, Word.length_unpack, UInt64.toNat_sub_of_le _ _ cut,
    UInt64.toNat_ofNat_of_lt' small, Nat.mul_comm Word.size,
    Nat.min_eq_left (Nat.min_le_right _ _)]
  omega

/-- The first words of a byte string, packed, are read as its first bytes. -/
theorem portion_pack (count : Nat) {data : List UInt8} (short : data.length < UInt64.size) :
    portion (UInt64.ofNat data.length) (Word.pack count (data.take (count * Word.size))) =
      (data.take (count * Word.size), UInt64.ofNat (data.drop (count * Word.size)).length) := by
  have taken : min data.length (count * Word.size) = (data.take (count * Word.size)).length := by
    rw [List.length_take, Nat.min_comm]
  have fits : (data.take (count * Word.size)).length ≤ Word.size * count := by
    rw [Nat.mul_comm]
    exact List.length_take_le _ _
  rw [portion, Word.length_pack, UInt64.toNat_ofNat_of_lt' short, taken]
  refine Prod.ext ?_ ?_
  · change (Word.unpack _).take _ = _
    rw [Word.unpack_pack fits, List.take_left]
  · change _ - _ = _
    rw [← UInt64.ofNat_sub (List.length_take_le' _ _), List.length_drop, ← taken]
    congr 1
    omega

/-- The further messages of a byte string are read as its further bytes. -/
theorem decode_chunks {width : Nat} (wide : 1 ≤ width) (bound : Nat) (data : List UInt8)
    (short : data.length < UInt64.size) (enough : data.length ≤ bound) :
    decode (UInt64.ofNat data.length)
      ((chunksWithin bound (width * Word.size) data).map (Word.pack width)) = (data, 0) := by
  induction bound generalizing data with
  | zero =>
      rw [Nat.le_zero, List.length_eq_zero_iff] at enough
      rw [enough]
      rfl
  | succ bound ih =>
      cases data with
      | nil => rfl
      | cons b data =>
          have some : UInt64.ofNat (b :: data).length ≠ 0 := by
            intro none
            have zero := congrArg UInt64.toNat none
            rw [UInt64.toNat_ofNat_of_lt' short] at zero
            exact absurd zero (Nat.succ_ne_zero _)
          have room : 1 ≤ width * Word.size := Nat.mul_pos wide (by decide)
          have rest := ih ((b :: data).drop (width * Word.size)) (by rw [List.length_drop]; omega)
            (by rw [List.length_drop]; omega)
          simp only [chunksWithin, List.map_cons, decode, scan, if_neg some, portion_pack width short,
            rest, List.take_append_drop]

/-- A length that can be sent is not the mark of the end. -/
theorem ofNat_ne_closeMark {length : Nat} (short : length < Ring.lengthLimit) :
    UInt64.ofNat length ≠ closeMark := by
  intro same
  have length_eq := congrArg UInt64.toNat same
  rw [UInt64.toNat_ofNat_of_lt' (Nat.lt_trans short (by decide))] at length_eq
  rw [length_eq] at short
  exact absurd short (by decide)

/-- The messages of a byte string are read as that string, and leave nothing to come. -/
theorem decode_wireForm {width : Nat} (wide : 1 ≤ width) {data : List UInt8}
    (short : data.length < Ring.lengthLimit) : decode 0 (wireForm width data) = (data, 0) := by
  have small : data.length < UInt64.size := Nat.lt_trans short (by decide)
  have head : scan 0 (headWords width data) =
      (data.take (headRoom width), UInt64.ofNat (data.drop (headRoom width)).length) := by
    unfold scan headWords
    rw [if_pos rfl, List.headD_cons, if_neg (ofNat_ne_closeMark short), List.tail_cons]
    exact portion_pack (width - 1) small
  have tail := decode_chunks wide (data.drop (headRoom width)).length
    (data.drop (headRoom width)) (by rw [List.length_drop]; omega) (Nat.le_refl _)
  simp only [wireForm, decode, head]
  unfold tailWords chunks
  rw [tail, List.take_append_drop]

/-- The announcement of the end holds no bytes. -/
theorem decode_closeWords (width : Nat) : decode 0 [closeWords width] = ([], 0) := by
  simp only [decode, scan, closeWords, List.headD_cons, if_true, List.append_nil]

theorem length_of_mem_wireForm {width : Nat} {data : List UInt8} {words : List UInt64}
    (mem : words ∈ wireForm width data) (wide : 1 ≤ width) : words.length = width := by
  rcases List.mem_cons.mp mem with rfl | further
  · rw [headWords, List.length_cons, Word.length_pack]
    omega
  · obtain ⟨chunk, -, rfl⟩ := List.mem_map.mp further
    exact Word.length_pack _ _

theorem length_closeWords {width : Nat} (wide : 1 ≤ width) : (closeWords width).length = width := by
  rw [closeWords, List.length_cons, List.length_replicate]
  omega

end Stream

end Conduit

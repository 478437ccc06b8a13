/-
# The bytes of a word

A word is told apart by its bits, and so is a byte: bit `k` of byte `i` is bit
`8 * i + k` of the word. From this follow the laws of replacing one byte, and that
packing bytes into words and unpacking them gives the bytes back, followed by the
zeros of the last word.
-/

import Conduit.Word
import Mathlib.Data.Nat.Bitwise

namespace Conduit.Word

/-! ### Bits -/

theorem toNat_shift {i : Nat} (hi : i < size) : (shift i).toNat = 8 * i := by
  unfold shift
  rw [UInt64.toNat_ofNat']
  exact Nat.mod_eq_of_lt (by have : size = 8 := rfl; omega)

theorem byte_eq_of_testBit {a b : UInt8} (same : ∀ k < 8, a.toNat.testBit k = b.toNat.testBit k) :
    a = b := by
  apply UInt8.toNat_inj.mp
  apply Nat.eq_of_testBit_eq
  intro k
  by_cases low : k < 8
  · exact same k low
  · have high : 2 ^ 8 ≤ 2 ^ k := Nat.pow_le_pow_right (by decide) (by omega)
    have ha := a.toNat_lt
    have hb := b.toNat_lt
    rw [Nat.testBit_lt_two_pow (by omega), Nat.testBit_lt_two_pow (by omega)]

theorem testBit_byte (w : UInt64) {i k : Nat} (hi : i < size) (hk : k < 8) :
    (byte w i).toNat.testBit k = w.toNat.testBit (8 * i + k) := by
  have small : 8 * i < 64 := by have : size = 8 := rfl; omega
  rw [byte, UInt64.toNat_toUInt8, UInt64.toNat_shiftRight, toNat_shift hi, Nat.mod_eq_of_lt small,
    Nat.testBit_mod_two_pow, Nat.testBit_shiftRight, decide_eq_true hk,
    Bool.true_and]

/-- A byte has no bits past the eighth. -/
theorem testBit_toNat_of_le (b : UInt8) {k : Nat} (hk : 8 ≤ k) : b.toNat.testBit k = false := by
  have high : 2 ^ 8 ≤ 2 ^ k := Nat.pow_le_pow_right (by decide) hk
  have hb := b.toNat_lt
  exact Nat.testBit_lt_two_pow (by omega)

/-! ### Replacing a byte -/

theorem testBit_setByte (w : UInt64) {i : Nat} (hi : i < size) (b : UInt8) {j : Nat} (hj : j < 64) :
    (setByte w i b).toNat.testBit j =
      if 8 * i ≤ j ∧ j < 8 * i + 8 then b.toNat.testBit (j - 8 * i) else w.toNat.testBit j := by
  have small : 8 * i < 64 := by have : size = 8 := rfl; omega
  have ones : (0xff : UInt64).toNat = 2 ^ 8 - 1 := rfl
  have full : ∀ x : UInt64, (~~~x).toNat = 2 ^ 64 - (x.toNat + 1) := fun x => by
    have whole : UInt64.size = 2 ^ 64 := rfl
    rw [UInt64.toNat_not, whole, Nat.sub_sub, Nat.add_comm 1]
  unfold setByte
  rw [UInt64.toNat_or, UInt64.toNat_and, full, UInt64.toNat_shiftLeft, UInt64.toNat_shiftLeft,
    toNat_shift hi, Nat.mod_eq_of_lt small, UInt8.toNat_toUInt64, ones, Nat.testBit_or,
    Nat.testBit_and, Nat.testBit_two_pow_sub_succ (Nat.mod_lt _ (by decide)),
    Nat.testBit_mod_two_pow, Nat.testBit_mod_two_pow, Nat.testBit_shiftLeft, Nat.testBit_shiftLeft,
    Nat.testBit_two_pow_sub_one]
  by_cases above : 8 * i ≤ j
  · by_cases below : j < 8 * i + 8
    · simp [hj, above, below, show j - 8 * i < 8 by omega]
    · simp [hj, above, below, show ¬ j - 8 * i < 8 by omega,
        testBit_toNat_of_le b (show 8 ≤ j - 8 * i by omega)]
  · simp [hj, above]

/-- A byte that is replaced is read back; the other bytes stay. -/
theorem byte_setByte (w : UInt64) {i j : Nat} (hi : i < size) (hj : j < size) (b : UInt8) :
    byte (setByte w i b) j = if i = j then b else byte w j := by
  have : size = 8 := rfl
  apply byte_eq_of_testBit
  intro k hk
  rw [testBit_byte _ hj hk, testBit_setByte w hi b (by omega)]
  by_cases same : i = j
  · rw [if_pos same, if_pos (by omega)]
    congr 1
    omega
  · rw [if_neg same, if_neg (by omega), testBit_byte _ hj hk]

/-! ### Packing -/

theorem testBit_ofBytes_cons (b : UInt8) (bytes : List UInt8) (j : Nat) :
    (ofBytes (b :: bytes)).toNat.testBit j =
      ((decide (j < 64) && (decide (8 ≤ j) && (ofBytes bytes).toNat.testBit (j - 8))) ||
        b.toNat.testBit j) := by
  change ((ofBytes bytes <<< 8) ||| b.toUInt64).toNat.testBit j = _
  rw [UInt64.toNat_or, Nat.testBit_or, UInt64.toNat_shiftLeft, UInt8.toNat_toUInt64,
    show (8 : UInt64).toNat % 64 = 8 from rfl, Nat.testBit_mod_two_pow, Nat.testBit_shiftLeft]

theorem byte_ofBytes_zero (b : UInt8) (bytes : List UInt8) : byte (ofBytes (b :: bytes)) 0 = b := by
  apply byte_eq_of_testBit
  intro k hk
  have low : ¬ 8 ≤ 8 * 0 + k := by omega
  rw [testBit_byte _ (by decide) hk, testBit_ofBytes_cons, decide_eq_false low, Bool.false_and,
    Bool.and_false, Bool.false_or, Nat.mul_zero, Nat.zero_add]

theorem byte_ofBytes_succ (b : UInt8) (bytes : List UInt8) {i : Nat} (hi : i + 1 < size) :
    byte (ofBytes (b :: bytes)) (i + 1) = byte (ofBytes bytes) i := by
  apply byte_eq_of_testBit
  intro k hk
  have : size = 8 := rfl
  have inside : 8 * (i + 1) + k < 64 := by omega
  have high : 8 ≤ 8 * (i + 1) + k := by omega
  have next : 8 * (i + 1) + k - 8 = 8 * i + k := by omega
  rw [testBit_byte _ hi hk, testBit_byte _ (by omega) hk, testBit_ofBytes_cons,
    testBit_toNat_of_le b high, decide_eq_true inside, decide_eq_true high, next, Bool.true_and,
    Bool.true_and, Bool.or_false]

theorem byte_ofBytes (bytes : List UInt8) {i : Nat} (hi : i < size) :
    byte (ofBytes bytes) i = bytes.getD i 0 := by
  induction bytes generalizing i with
  | nil =>
      apply byte_eq_of_testBit
      intro k hk
      rw [testBit_byte _ hi hk]
      exact (Nat.zero_testBit _).trans (Nat.zero_testBit _).symm
  | cons b bytes ih =>
      cases i with
      | zero => exact byte_ofBytes_zero b bytes
      | succ i =>
          rw [byte_ofBytes_succ b bytes hi, ih (by omega)]
          rfl

/-- At most eight bytes come back, followed by zeros. -/
theorem toBytes_ofBytes {bytes : List UInt8} (fits : bytes.length ≤ size) :
    toBytes (ofBytes bytes) = bytes ++ List.replicate (size - bytes.length) 0 := by
  apply List.ext_getElem
  · rw [length_toBytes, List.length_append, List.length_replicate]
    omega
  intro i hi hi'
  rw [length_toBytes] at hi
  simp only [toBytes, List.getElem_map, List.getElem_range]
  rw [byte_ofBytes bytes hi]
  by_cases here : i < bytes.length
  · rw [List.getElem_append_left here, List.getD_eq_getElem _ _ here]
  · rw [List.getElem_append_right (by omega), List.getElem_replicate,
      List.getD_eq_default _ _ (by omega)]

/-- Bytes that fit the words come back, followed by zeros. -/
theorem unpack_pack {count : Nat} {bytes : List UInt8} (fits : bytes.length ≤ size * count) :
    unpack (pack count bytes) = bytes ++ List.replicate (size * count - bytes.length) 0 := by
  induction count generalizing bytes with
  | zero =>
      rw [Nat.mul_zero, Nat.le_zero, List.length_eq_zero_iff] at fits
      rw [fits]
      rfl
  | succ count ih =>
      rw [Nat.mul_succ] at fits ⊢
      change toBytes (ofBytes (bytes.take size)) ++ unpack (pack count (bytes.drop size)) = _
      rw [toBytes_ofBytes (List.length_take_le _ _), ih (by rw [List.length_drop]; omega),
        List.length_take, List.length_drop]
      by_cases short : bytes.length ≤ size
      · rw [List.take_of_length_le short, List.drop_of_length_le short, List.nil_append,
          List.append_assoc, List.replicate_append_replicate]
        congr 2
        omega
      · rw [Nat.min_eq_left (by omega), Nat.sub_self, List.replicate_zero, List.append_nil,
          ← List.append_assoc, List.take_append_drop]
        congr 2
        omega

end Conduit.Word

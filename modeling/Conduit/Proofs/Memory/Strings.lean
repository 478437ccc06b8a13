/-
# Strings in a view

What a view shows, byte by byte. As for words, `byte` reads and `putByte` writes without
the checks of `byteAt` and `setByteAt`, which succeed inside a view that its block holds.
A string lies in a view where its bytes do, with a zero byte behind them (`HasString`);
it is read back as long as nothing is written before its end (`readString_eq`,
`HasString.congr`).
-/

import Conduit.Proofs.Memory.Bytes
import Conduit.Proofs.Memory.Words

namespace Conduit.Memory

variable {m m' : Memory} {v w : View} {offset : Nat} {bytes : List UInt8}

/-- The byte at an offset of a view, and zero where there is none. -/
def byte (m : Memory) (v : View) (offset : Nat) : UInt8 :=
  Word.byte (m.word v (offset / Word.size)) (offset % Word.size)

/-- The memory with one byte of a view replaced. -/
def putByte (m : Memory) (v : View) (offset : Nat) (b : UInt8) : Memory :=
  m.put v (offset / Word.size)
    (Word.setByte (m.word v (offset / Word.size)) (offset % Word.size) b)

/-- The memory with the bytes from an offset of a view on replaced. -/
def putRun (m : Memory) (v : View) (offset : Nat) : List UInt8 → Memory
  | [] => m
  | b :: rest => (m.putByte v offset b).putRun v (offset + 1) rest

/-! ### One byte -/

theorem div_lt_words (inside : offset < v.bytes) : offset / Word.size < v.words :=
  Nat.div_lt_of_lt_mul (by rw [Nat.mul_comm]; exact inside)

theorem mod_lt_size (offset : Nat) : offset % Word.size < Word.size := Nat.mod_lt _ (by decide)

theorem byteAt_eq (held : m.Holds v) (inside : offset < v.bytes) :
    m.byteAt v offset = .ok (m.byte v offset) := by
  rw [byteAt, load_eq held (div_lt_words inside)]
  rfl

theorem setByteAt_eq (held : m.Holds v) (inside : offset < v.bytes) (b : UInt8) :
    m.setByteAt v offset b = .ok (m.putByte v offset b) := by
  rw [setByteAt, load_eq held (div_lt_words inside)]
  exact store_eq held (div_lt_words inside) _

theorem Holds.putByte (held : m.Holds w) (v : View) (offset : Nat) (b : UInt8) :
    (m.putByte v offset b).Holds w := held.put v _ _

/-- A byte that is written is read back; every other byte stays. -/
theorem byte_putByte (held : m.Holds v) (inside : offset < v.bytes) (b : UInt8) (other : Nat) :
    (m.putByte v offset b).byte v other = if offset = other then b else m.byte v other := by
  unfold byte putByte
  rw [word_put held (div_lt_words inside)]
  by_cases sameWord : offset / Word.size = other / Word.size
  · rw [if_pos ⟨rfl, congrArg (v.start + ·) sameWord⟩,
      Word.byte_setByte _ (mod_lt_size offset) (mod_lt_size other), sameWord]
    by_cases same : offset = other
    · rw [if_pos (congrArg (· % Word.size) same), if_pos same]
    · rw [if_neg same, if_neg]
      intro sameByte
      apply same
      rw [← Nat.div_add_mod offset Word.size, sameWord, sameByte, Nat.div_add_mod]
  · rw [if_neg, if_neg]
    · exact fun same => sameWord (congrArg (· / Word.size) same)
    · exact fun same => sameWord (Nat.add_left_cancel same.2)

/-! ### Runs of bytes -/

theorem Holds.putRun (held : m.Holds w) (v : View) (offset : Nat) (bytes : List UInt8) :
    (m.putRun v offset bytes).Holds w := by
  induction bytes generalizing m offset with
  | nil => exact held
  | cons b bytes ih => exact ih (held.putByte v offset b) (offset + 1)

/-- Bytes are written behind others as if they were written with them. -/
theorem putRun_append (m : Memory) (v : View) (offset : Nat) (bytes more : List UInt8) :
    m.putRun v offset (bytes ++ more) =
      (m.putRun v offset bytes).putRun v (offset + bytes.length) more := by
  induction bytes generalizing m offset with
  | nil => rfl
  | cons b bytes ih =>
      rw [List.cons_append, putRun, putRun, ih, List.length_cons, Nat.add_assoc, Nat.add_comm 1]

theorem grows_putRun (m : Memory) (v : View) (offset : Nat) (bytes : List UInt8) :
    m.Grows (m.putRun v offset bytes) := by
  induction bytes generalizing m offset with
  | nil => exact .refl m
  | cons b bytes ih => exact (grows_put m v _ _).trans (ih _ _)

theorem grows_putRun_putRun (m : Memory) (v : View) (offset offset' : Nat)
    (bytes bytes' : List UInt8) :
    m.Grows ((m.putRun v offset bytes).putRun v offset' bytes') :=
  (grows_putRun m v offset bytes).trans (grows_putRun _ v offset' bytes')

theorem putBytes_eq (held : m.Holds v) (fits : offset + bytes.length ≤ v.bytes) :
    m.putBytes v offset bytes = .ok (m.putRun v offset bytes) := by
  induction bytes generalizing m offset with
  | nil => rfl
  | cons b bytes ih =>
      rw [List.length_cons] at fits
      rw [putBytes, setByteAt_eq held (by omega)]
      exact ih (held.putByte v offset b) (by omega)

theorem writeBytes_eq (held : m.Holds v) (fits : offset + bytes.length ≤ v.bytes) :
    m.writeBytes v offset bytes = .ok (true, m.putRun v offset bytes) := by
  have covered : v.covers offset bytes.length = true := decide_eq_true fits
  rw [writeBytes, if_pos covered, putBytes_eq held fits]
  rfl

theorem byte_putRun_outside (held : m.Holds v) (fits : offset + bytes.length ≤ v.bytes)
    {other : Nat} (outside : other < offset ∨ offset + bytes.length ≤ other) :
    (m.putRun v offset bytes).byte v other = m.byte v other := by
  induction bytes generalizing m offset with
  | nil => rfl
  | cons b bytes ih =>
      rw [List.length_cons] at fits outside
      rw [putRun, ih (held.putByte v offset b) (by omega) (by omega),
        byte_putByte held (by omega), if_neg (by omega)]

theorem byte_putRun_inside (held : m.Holds v) (fits : offset + bytes.length ≤ v.bytes) {k : Nat}
    (hk : k < bytes.length) : (m.putRun v offset bytes).byte v (offset + k) = bytes[k] := by
  induction bytes generalizing m offset k with
  | nil => exact absurd hk (Nat.not_lt_zero k)
  | cons b bytes ih =>
      rw [List.length_cons] at fits hk
      have held' := held.putByte v offset b
      rw [putRun]
      cases k with
      | zero =>
          rw [byte_putRun_outside held' (by omega) (by omega), byte_putByte held (by omega),
            if_pos (by omega)]
          rfl
      | succ k =>
          rw [show offset + (k + 1) = offset + 1 + k by omega,
            ih held' (by omega) (by omega)]
          rfl

/-! ### Strings -/

/-- A string lies at an offset of a view, with a zero byte behind it. -/
structure HasString (m : Memory) (v : View) (offset : Nat) (bytes : List UInt8) : Prop where
  inside : offset + bytes.length + 1 ≤ v.bytes
  same : ∀ k (hk : k < bytes.length), m.byte v (offset + k) = bytes[k]
  zero : m.byte v (offset + bytes.length) = 0
  nonzero : 0 ∉ bytes

/-- A string stays where nothing before its end changes. -/
theorem HasString.congr (has : m.HasString v offset bytes)
    (unchanged : ∀ k < offset + bytes.length + 1, m'.byte v k = m.byte v k) :
    m'.HasString v offset bytes where
  inside := has.inside
  same k hk := (unchanged _ (by omega)).trans (has.same k hk)
  zero := (unchanged _ (by omega)).trans has.zero
  nonzero := has.nonzero

theorem HasString.tail {b : UInt8} (has : m.HasString v offset (b :: bytes)) :
    m.HasString v (offset + 1) bytes where
  inside := by
    have inside := has.inside
    rw [List.length_cons] at inside
    omega
  same k hk := by
    rw [show offset + 1 + k = offset + (k + 1) by omega]
    exact has.same (k + 1) (Nat.succ_lt_succ hk)
  zero := by
    rw [show offset + 1 + bytes.length = offset + (b :: bytes).length by
      rw [List.length_cons]; omega]
    exact has.zero
  nonzero mem := has.nonzero (List.mem_cons_of_mem _ mem)

theorem stringWithin_eq (held : m.Holds v) (has : m.HasString v offset bytes) {count : Nat}
    (enough : bytes.length < count) : m.stringWithin v offset count = .ok (some bytes) := by
  have inside := has.inside
  induction bytes generalizing offset count with
  | nil =>
      obtain ⟨count, rfl⟩ := Nat.exists_eq_succ_of_ne_zero (Nat.ne_zero_of_lt enough)
      have zero : m.byte v offset = 0 := has.zero
      rw [stringWithin, byteAt_eq held (by rw [List.length_nil] at inside; omega), zero]
      rfl
  | cons b bytes ih =>
      rw [List.length_cons] at inside enough
      obtain ⟨count, rfl⟩ := Nat.exists_eq_succ_of_ne_zero (Nat.ne_zero_of_lt enough)
      have first : m.byte v offset = b := has.same 0 (Nat.zero_lt_succ _)
      have nonzero : b ≠ 0 := fun zero => has.nonzero (zero ▸ List.mem_cons_self)
      rw [stringWithin, byteAt_eq held (by omega), first]
      simp only [bind, Except.bind, if_neg nonzero]
      rw [ih has.tail (by omega) has.tail.inside]
      rfl

theorem readString_eq (held : m.Holds v) (has : m.HasString v offset bytes) :
    m.readString v offset = .ok (some bytes) := by
  have inside := has.inside
  exact stringWithin_eq held has (by omega)

/-- Looking for the end of a string does not leave the view. -/
theorem stringWithin_total (held : m.Holds v) {count : Nat} (inside : offset + count ≤ v.bytes) :
    ∃ found, m.stringWithin v offset count = .ok found := by
  induction count generalizing offset with
  | zero => exact ⟨none, rfl⟩
  | succ count ih =>
      rw [stringWithin, byteAt_eq held (by omega)]
      by_cases zero : m.byte v offset = 0
      · exact ⟨some [], by simp only [bind, Except.bind, if_pos zero]; rfl⟩
      · obtain ⟨rest, found⟩ : ∃ rest, m.stringWithin v (offset + 1) count = .ok rest :=
          ih (by omega)
        exact ⟨rest.map (m.byte v offset :: ·), by
          simp only [bind, Except.bind, if_neg zero, found]
          rfl⟩

theorem readString_total (held : m.Holds v) (offset : Nat) :
    ∃ found, m.readString v offset = .ok found := by
  unfold readString
  by_cases inside : offset ≤ v.bytes
  · exact stringWithin_total held (by omega)
  · rw [show v.bytes - offset = 0 by omega]
    exact ⟨none, rfl⟩

/-- A string that is written with a zero byte behind it lies there. -/
theorem hasString_putRun (held : m.Holds v) (fits : offset + bytes.length + 1 ≤ v.bytes)
    (nonzero : 0 ∉ bytes) :
    ((m.putRun v offset bytes).putRun v (offset + bytes.length) [0]).HasString v offset bytes where
  inside := fits
  same k hk := by
    have held' := held.putRun v offset bytes
    have fits' : offset + bytes.length + [(0 : UInt8)].length ≤ v.bytes := fits
    rw [byte_putRun_outside held' fits' (.inl (by omega)),
      byte_putRun_inside held (by omega) hk]
  zero := by
    have fits' : offset + bytes.length + [(0 : UInt8)].length ≤ v.bytes := fits
    exact byte_putRun_inside (held.putRun v offset bytes) fits' Nat.zero_lt_one
  nonzero := nonzero

end Conduit.Memory

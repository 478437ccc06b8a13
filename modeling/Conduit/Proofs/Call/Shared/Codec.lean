/-
# What fits a slot is read back

Over shared memory the values of a call travel in the slot itself. `size` counts the words
that they take, the tag included. Values without capabilities are written exactly if their
size is at most the width of the slot, and what was written is read back, whatever the
strings hold (`encode_cases`): each string comes with its length in bytes, so neither a
zero byte nor the padding of its last word ends it.
-/

import Conduit.Call.Inline
import Conduit.Proofs.Memory.Bytes

namespace Conduit

namespace Inline

variable {t : MessageType} {tag : UInt64} {values : List Value} {width : Nat}
  {words : List UInt64}

/-- The words that stand for a value. -/
def wordsFor : Value → List UInt64
  | .word w => [w]
  | .str s => UInt64.ofNat (Utf8.encode s).length :: body (Utf8.encode s)
  | .cap _ => []

/-- The number of words in a message with these values. -/
def size (values : List Value) : Nat := 1 + (values.map fun value => (wordsFor value).length).sum

theorem length_wordsFor_str (s : String) :
    (wordsFor (.str s)).length = 1 + Word.countFor (Utf8.encode s).length := by
  rw [wordsFor, body, List.length_cons, Word.length_pack, Nat.add_comm]

theorem length_flatMap_wordsFor (values : List Value) :
    1 + (values.flatMap wordsFor).length = size values := by
  rw [size, List.length_flatMap]

/-! ### Writing -/

/-- Values without capabilities are written unless there are not enough words for them. -/
theorem addAll_cases (words : List UInt64) (capless : .cap ∉ values.map Value.kind) (room : words.length ≤ width) :
    words.length + (values.flatMap wordsFor).length ≤ width ∧
        addAll width values words = .ok (words ++ values.flatMap wordsFor) ∨
      width < words.length + (values.flatMap wordsFor).length ∧
        ∃ e, addAll width values words = .error e := by
  induction values generalizing words with
  | nil =>
      left
      rw [List.flatMap_nil, List.append_nil]
      exact ⟨room, rfl⟩
  | cons value values ih =>
      rw [List.map_cons, List.mem_cons, not_or] at capless
      obtain ⟨notCap, capless⟩ := capless
      rw [List.flatMap_cons, List.length_append, ← Nat.add_assoc, ← List.append_assoc]
      cases value with
      | word w =>
          change words.length + 1 + _ ≤ width ∧ _ ∨ width < words.length + 1 + _ ∧ _
          unfold addAll
          by_cases space : words.length < width
          · have longer : (words ++ [w]).length = words.length + 1 := List.length_append
            rw [if_pos space, ← longer]
            exact ih _ capless (longer ▸ space)
          · rw [if_neg space]
            exact .inr ⟨by omega, _, rfl⟩
      | str s =>
          have longer : (words ++ wordsFor (.str s)).length =
              words.length + 1 + Word.countFor (Utf8.encode s).length := by
            rw [List.length_append, length_wordsFor_str, Nat.add_assoc]
          rw [← List.length_append, longer]
          unfold addAll
          by_cases large : words.length + 1 + Word.countFor (Utf8.encode s).length > width
          · simp only [if_pos large]
            exact .inr ⟨by omega, _, rfl⟩
          · simp only [if_neg large]
            rw [← longer]
            exact ih _ capless (by omega)
      | cap c => exact absurd rfl notCap

/-! ### Reading -/

theorem length_le_countFor (bytes : List UInt8) :
    bytes.length ≤ Word.size * Word.countFor bytes.length := by
  unfold Word.countFor Word.size
  omega

/-- A string that fits is as long as its first word says. -/
theorem toNat_ofNat_length (bytes : List UInt8) (fits : Word.countFor bytes.length ≤ width)
    (small : width * Word.size < 2 ^ 64) : (UInt64.ofNat bytes.length).toNat = bytes.length := by
  rw [UInt64.toNat_ofNat']
  apply Nat.mod_eq_of_lt
  have inside := length_le_countFor bytes
  have most := Nat.mul_le_mul_right Word.size fits
  rw [Nat.mul_comm] at inside
  exact Nat.lt_of_le_of_lt (Nat.le_trans inside most) small

theorem take_unpack_body (bytes : List UInt8) :
    (Word.unpack (body bytes)).take bytes.length = bytes := by
  rw [body, Word.unpack_pack (length_le_countFor bytes), List.take_left]

/-- What was written is read back, whatever follows it. -/
theorem read_wordsFor (capless : .cap ∉ values.map Value.kind)
    (fits : (values.flatMap wordsFor).length ≤ width) (small : width * Word.size < 2 ^ 64)
    (rest : List UInt64) :
    read t (values.map Value.kind) (values.flatMap wordsFor ++ rest) = .ok values := by
  induction values with
  | nil => rfl
  | cons value values ih =>
      rw [List.map_cons, List.mem_cons, not_or] at capless
      obtain ⟨notCap, capless⟩ := capless
      rw [List.flatMap_cons, List.length_append] at fits
      have later := ih capless (by omega)
      rw [List.flatMap_cons, List.append_assoc, List.map_cons]
      cases value with
      | word w =>
          change (read t (values.map Value.kind) (values.flatMap wordsFor ++ rest)).map _ = _
          rw [later]
          rfl
      | str s =>
          rw [length_wordsFor_str] at fits
          have length := toNat_ofNat_length (Utf8.encode s) (by omega) small
          have count : (body (Utf8.encode s)).length = Word.countFor (Utf8.encode s).length :=
            Word.length_pack _ _
          change read t (.str :: values.map Value.kind) (UInt64.ofNat (Utf8.encode s).length ::
            (body (Utf8.encode s) ++ (values.flatMap wordsFor ++ rest))) = _
          have whole : ¬ (body (Utf8.encode s) ++ (values.flatMap wordsFor ++ rest)).length <
              Word.countFor (Utf8.encode s).length := by
            rw [List.length_append, count]
            omega
          unfold read
          simp only [length, if_neg whole]
          rw [← count, List.take_left, List.drop_left, take_unpack_body, Utf8.decode?_encode,
            later]
          rfl
      | cap c => exact absurd rfl notCap

/-! ### Messages -/

/-- A message that fills a slot and holds the values behind the tag. -/
structure Holding (t : MessageType) (tag : UInt64) (values : List Value) (width : Nat)
    (message : Message) : Prop where
  tag : message.tag = tag
  width : message.words.length = width
  capless : message.cap = none
  reads : decode t (values.map Value.kind) message = .ok values

/-- Values without capabilities are written exactly if there are enough words. -/
theorem encode_cases (t : MessageType) (tag : UInt64) (capless : .cap ∉ values.map Value.kind)
    (one : 1 ≤ width) (small : width * Word.size < 2 ^ 64) :
    size values ≤ width ∧ (∃ message, encode tag values width = .ok message ∧
        Holding t tag values width message) ∨
      width < size values ∧ ∃ e, encode tag values width = .error e := by
  have length : ([tag] ++ values.flatMap wordsFor).length = size values :=
    List.length_append.trans (length_flatMap_wordsFor values)
  rw [← length_flatMap_wordsFor]
  rcases addAll_cases [tag] capless one with ⟨fits, added⟩ | ⟨large, e, refused⟩
  · refine .inl ⟨fits, ⟨([tag] ++ values.flatMap wordsFor) ++
      List.replicate (width - ([tag] ++ values.flatMap wordsFor).length) 0, none⟩, ?_, ?_⟩
    · unfold encode
      rw [added]
      rfl
    · exact {
        tag := rfl
        width := by
          rw [List.length_append, List.length_replicate, length, ← length_flatMap_wordsFor]
          exact Nat.add_sub_cancel' fits
        capless := rfl
        reads := read_wordsFor capless (Nat.le_of_add_left_le fits) small _ }
  · refine .inr ⟨large, e, ?_⟩
    unfold encode
    rw [refused]
    rfl

end Inline

end Conduit

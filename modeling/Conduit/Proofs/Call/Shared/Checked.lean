/-
# Reading a slot with every step checked

A reader of a slot goes by what the peer wrote: the length of a string may be any word. Here it
reads as a program on machine words does, from a place in the slot on that moves with what was
read, and whatever could go wrong is checked as in `Conduit.Proofs.Checked`: sums
that overflow, ranges outside a slice, buffers that cannot be allocated. The words of the slot
alone bound all of it, so no check fails and the values are those of `Inline.decode`, whatever
the peer wrote (`decodeChecked_eq`).
-/

import Conduit.Call.Inline
import Conduit.Proofs.Stream.Checked.Reading

namespace Conduit

open Checked

/-- A zeroed buffer, which must not be larger than can be allocated. -/
def Checked.zeros (length : Nat) : Except Panic (List UInt8) :=
  if length < Ring.lengthLimit then .ok (List.replicate length 0) else .error .tooLarge

/-- The elements of a range, if it lies inside. -/
def Checked.slice? {α : Type} (xs : List α) (start count : Nat) : Option (List α) :=
  if start ≤ xs.length ∧ count ≤ xs.length - start then some ((xs.drop start).take count) else none

theorem Checked.slice?_eq {α : Type} {xs : List α} {start : Nat} (inside : start ≤ xs.length)
    (count : Nat) : slice? xs start count =
      if xs.length - start < count then none else some ((xs.drop start).take count) := by
  unfold slice?
  by_cases short : xs.length - start < count
  · rw [if_pos short, if_neg fun fits => absurd short (Nat.not_lt_of_ge fits.2)]
  · rw [if_neg short, if_pos ⟨inside, Nat.le_of_not_lt short⟩]

/-- The number of words that a byte string of this length needs: the quotient, and one more if
there is a remainder. -/
def Word.countForChecked (bytes : Nat) : Except Panic Nat :=
  if bytes % size = 0 then .ok (bytes / size) else plus (bytes / size) 1

theorem Word.countForChecked_eq {bytes : Nat} (short : bytes < limit) :
    countForChecked bytes = .ok (countFor bytes) := by
  unfold countForChecked countFor size
  by_cases whole : bytes % 8 = 0
  · rw [if_pos whole]
    congr 1
    omega
  · have sum : bytes / 8 + 1 < limit := by
      unfold limit at short ⊢
      omega
    rw [if_neg whole, plus_ok sum]
    congr 1
    omega

/-- The first bytes of words, in a buffer of their own. -/
def Word.unpackChecked (packed : List UInt64) (length : Nat) : Except Panic (List UInt8) := do
  unpackInto packed (← zeros length)

theorem Word.unpackChecked_eq {packed : List UInt64} {length : Nat}
    (small : packed.length < Memory.wordLimit) (fits : length ≤ packed.length * size) :
    unpackChecked packed length = .ok ((unpack packed).take length) := by
  have short : length < Ring.lengthLimit := by
    unfold Memory.wordLimit at small
    unfold Ring.lengthLimit
    unfold size at fits
    omega
  have buffer : zeros length = .ok (List.replicate length 0) := if_pos short
  have filled := unpackInto_eq packed (List.replicate length 0)
    (by rw [List.length_replicate]; exact fits)
  rw [List.length_replicate] at filled
  rw [unpackChecked, buffer]
  exact filled

/-- The words that a byte string needs hold its bytes. -/
theorem Word.unpackChecked_take {words : List UInt64} {length : Nat}
    (small : words.length < Memory.wordLimit) (room : countFor length ≤ words.length) :
    unpackChecked (words.take (countFor length)) length =
      .ok ((unpack (words.take (countFor length))).take length) := by
  have taken : (words.take (countFor length)).length = countFor length :=
    List.length_take_of_le room
  have short : (words.take (countFor length)).length < Memory.wordLimit := by
    rw [taken]
    exact Nat.lt_of_le_of_lt room small
  refine unpackChecked_eq short ?_
  rw [taken]
  unfold countFor size
  omega

namespace Inline

/-- Reads values of these kinds from a place in the slot on. -/
def readChecked (t : MessageType) (words : List UInt64) :
    List Kind → (place : Nat) → Except Panic (Except Error (List Value))
  | [], _ => .ok (.ok [])
  | .word :: kinds, place =>
      match words[place]? with
      | none => .ok (.error (.argMismatch t))
      | some w => do
          let rest ← readChecked t words kinds (← plus place 1)
          return rest.map (.word w :: ·)
  | .str :: kinds, place =>
      match words[place]? with
      | none => .ok (.error (.argMismatch t))
      | some length => do
          let count ← Word.countForChecked length.toNat
          let start ← plus place 1
          match slice? words start count with
          | none => return .error (.argMismatch t)
          | some packed =>
              let bytes ← Word.unpackChecked packed length.toNat
              let next ← plus place (← plus 1 count)
              match Utf8.decode? bytes with
              | none => return .error (.argMismatch t)
              | some s =>
                  let rest ← readChecked t words kinds next
                  return rest.map (.str s :: ·)
  | .cap :: _, _ => .ok (.error .notImplemented)

/-- The values of these kinds in a message, which are read behind its first word. -/
def decodeChecked (t : MessageType) (kinds : List Kind) (message : Message) :
    Except Panic (Except Error (List Value)) := readChecked t message.words kinds 1

variable {t : MessageType} {words : List UInt64} {kinds : List Kind}

/-- Whatever the words are, reading them stays inside. -/
theorem readChecked_eq (small : words.length < Memory.wordLimit) {place : Nat}
    (inside : place ≤ words.length) :
    readChecked t words kinds place = .ok (read t kinds (words.drop place)) := by
  have limits : Memory.wordLimit < limit := by decide
  induction kinds generalizing place with
  | nil => rfl
  | cons kind kinds ih =>
      have next : place + 1 < limit := by omega
      cases kind with
      | cap => rfl
      | word =>
          by_cases last : place < words.length
          · rw [List.drop_eq_getElem_cons last, readChecked, List.getElem?_eq_getElem last]
            simp only [plus_ok next, bind, Except.bind, ih last]
            rfl
          · rw [List.drop_of_length_le (by omega), readChecked, List.getElem?_eq_none (by omega)]
            rfl
      | str =>
          by_cases last : place < words.length
          · rw [List.drop_eq_getElem_cons last, readChecked, List.getElem?_eq_getElem last]
            generalize words[place] = length
            have count := Word.countForChecked_eq (show length.toNat < 2 ^ 64 from length.toNat_lt)
            simp only [count, plus_ok next, bind, Except.bind, read, slice?_eq last,
              List.length_drop]
            by_cases short : words.length - (place + 1) < Word.countFor length.toNat
            · rw [if_pos short, if_pos short]
              rfl
            · have unread : (words.drop (place + 1)).length = words.length - (place + 1) :=
                List.length_drop
              have room : Word.countFor length.toNat ≤ (words.drop (place + 1)).length :=
                unread ▸ Nat.le_of_not_lt short
              have unpacked := Word.unpackChecked_take (by omega) room
              have one : 1 + Word.countFor length.toNat < limit := by omega
              have behind : place + (1 + Word.countFor length.toNat) < limit := by omega
              rw [if_neg short, if_neg short, List.drop_drop, Nat.add_assoc]
              simp only [unpacked, plus_ok one, plus_ok behind]
              cases Utf8.decode? ((Word.unpack ((words.drop (place + 1)).take
                  (Word.countFor length.toNat))).take length.toNat) with
              | none => rfl
              | some s =>
                  simp only [ih (show place + (1 + Word.countFor length.toNat) ≤ _ by omega)]
                  rfl
          · rw [List.drop_of_length_le (by omega), readChecked, List.getElem?_eq_none (by omega)]
            rfl

/-- No step of reading a message fails a check. -/
theorem decodeChecked_eq (t : MessageType) (kinds : List Kind) {message : Message}
    (one : 1 ≤ message.words.length) (small : message.words.length < Memory.wordLimit) :
    decodeChecked t kinds message = .ok (decode t kinds message) := by
  rw [decodeChecked, readChecked_eq small one, List.drop_one, decode]

end Inline

end Conduit

/-
# What is read from a message

A message is read with the kinds of the binding in hand and the words of the peer, who may
have put anything there. `Paged.Reads` and `Inline.Reads` say which values such a reading
gives: the words that stand in the message, the capability that travels in it, and texts
whose bytes lie in the page, up to the first zero byte, or in the words that follow their
length. Whatever is read is such a list of values (`reads_of_read`), and they are of the
kinds that were asked for (`Reads.kinds_eq`).
-/

import Conduit.Call.Inline
import Conduit.Call.Paged
import Conduit.Proofs.Call.Codec

namespace Conduit

/-- A text is decoded from its own bytes only. -/
theorem Utf8.encode_of_decode? {bytes : List UInt8} {s : String}
    (decoded : Utf8.decode? bytes = some s) : Utf8.encode s = bytes := by
  unfold Utf8.decode? String.fromUTF8? at decoded
  split at decoded
  · cases decoded
    simp [Utf8.encode, String.fromUTF8]
  · cases decoded

/-! ### Strings in a view -/

namespace Memory

variable {m : Memory} {v : View} {offset : Nat}

theorem word_of_load {i : Nat} {w : UInt64} (loaded : m.load v i = .ok w) :
    i < v.words ∧ m.word v i = w := by
  unfold load at loaded
  split at loaded
  · rename_i inside
    cases found : m.blocks[v.block]? with
    | none => simp [found] at loaded
    | some block =>
        cases here : block[v.start + i]? with
        | none => simp [found, here] at loaded
        | some word =>
            simp only [found, here, Except.ok.injEq] at loaded
            have held : m.blockOf v = block := by
              rw [blockOf, Array.getD_eq_getD_getElem?, found, Option.getD_some]
            refine ⟨inside, ?_⟩
            rw [Memory.word, held, Array.getD_eq_getD_getElem?, here, Option.getD_some, loaded]
  · cases loaded

theorem byte_of_byteAt {b : UInt8} (read : m.byteAt v offset = .ok b) : m.byte v offset = b := by
  obtain ⟨w, loaded, here⟩ := of_bind_ok read
  unfold byte
  rw [(word_of_load loaded).2]
  exact Except.ok.inj here

/-- The bytes that are found before the first zero byte lie there. -/
theorem hasString_of_stringWithin {count : Nat} {bytes : List UInt8}
    (found : m.stringWithin v offset count = .ok (some bytes))
    (inside : offset + count ≤ v.bytes) : m.HasString v offset bytes := by
  induction count generalizing offset bytes with
  | zero => cases found
  | succ count ih =>
      obtain ⟨b, read, found⟩ := of_bind_ok found
      have here := byte_of_byteAt read
      split at found
      case isTrue zero =>
        cases found
        exact {
          inside := by rw [List.length_nil]; omega
          same := fun k hk => absurd hk (Nat.not_lt_zero k)
          zero := here.trans zero
          nonzero := List.not_mem_nil }
      case isFalse nonzero =>
        obtain ⟨rest?, later, found⟩ := of_bind_ok found
        obtain ⟨rest, rfl, rfl⟩ := Option.map_eq_some_iff.mp (Except.ok.inj found)
        have tail := ih later (by omega)
        exact {
          inside := by
            have inside := tail.inside
            rw [List.length_cons]
            omega
          same := fun k hk => by
            cases k with
            | zero => exact here
            | succ k =>
                rw [show offset + (k + 1) = offset + 1 + k by omega]
                exact tail.same k (Nat.lt_of_succ_lt_succ hk)
          zero := by
            rw [List.length_cons,
              show offset + (rest.length + 1) = offset + 1 + rest.length by omega]
            exact tail.zero
          nonzero := fun mem => by
            rcases List.mem_cons.mp mem with same | mem
            · exact nonzero same.symm
            · exact tail.nonzero mem }

theorem hasString_of_readString {bytes : List UInt8}
    (found : m.readString v offset = .ok (some bytes)) : m.HasString v offset bytes := by
  unfold readString at found
  by_cases inside : offset ≤ v.bytes
  · exact hasString_of_stringWithin found (by omega)
  · rw [Nat.sub_eq_zero_of_le (Nat.le_of_not_le inside)] at found
    cases found

end Memory

/-! ### Messages with a page -/

namespace Paged

/-- Reading values of these kinds from these words and this capability gives these
values. -/
inductive Reads (page : Option View) (m : Memory) :
    List Kind → List UInt64 → Option Cap → List Value → Prop
  | nil (words : List UInt64) (cap : Option Cap) : Reads page m [] words cap []
  | word {kinds : List Kind} {words : List UInt64} {cap : Option Cap} {values : List Value}
      (w : UInt64) (rest : Reads page m kinds words cap values) :
      Reads page m (.word :: kinds) (w :: words) cap (.word w :: values)
  | str {kinds : List Kind} {words : List UInt64} {cap : Option Cap} {values : List Value}
      {view : View} {offset : UInt64} {s : String} (known : page = some view)
      (found : m.HasString view offset.toNat (Utf8.encode s))
      (rest : Reads page m kinds words cap values) :
      Reads page m (.str :: kinds) (offset :: words) cap (.str s :: values)
  | cap {kinds : List Kind} {words : List UInt64} {values : List Value} (c : Cap)
      (rest : Reads page m kinds words none values) :
      Reads page m (.cap :: kinds) words (some c) (.cap c :: values)

variable {t : MessageType} {page : Option View} {m : Memory} {kinds : List Kind}
  {words : List UInt64} {cap : Option Cap} {values : List Value}

theorem Reads.kinds_eq (reads : Reads page m kinds words cap values) :
    values.map Value.kind = kinds := by
  induction reads with
  | nil => rfl
  | word _ _ ih => exact congrArg (Kind.word :: ·) ih
  | str _ _ _ ih => exact congrArg (Kind.str :: ·) ih
  | cap _ _ ih => exact congrArg (Kind.cap :: ·) ih

theorem cons_ok {value : Value} {rest : Except Panic (Except Error (List Value))}
    (got : (do return (← rest).map (value :: ·)) = (.ok (.ok values) : Except Panic _)) :
    ∃ later, rest = .ok (.ok later) ∧ values = value :: later := by
  obtain ⟨answer, rfl, mapped⟩ := of_bind_ok got
  obtain ⟨later, rfl, same⟩ := of_map_ok (Except.ok.inj mapped)
  exact ⟨later, rfl, same.symm⟩

/-- The only capability that is read is the one that travels. -/
theorem Reads.cap_eq {c : Cap} (reads : Reads page m kinds words cap values)
    (mem : .cap c ∈ values) : cap = some c := by
  induction reads with
  | nil => exact absurd mem List.not_mem_nil
  | word _ _ ih =>
      rcases List.mem_cons.mp mem with same | mem
      · cases same
      · exact ih mem
  | str _ _ _ ih =>
      rcases List.mem_cons.mp mem with same | mem
      · cases same
      · exact ih mem
  | cap _ _ ih =>
      rcases List.mem_cons.mp mem with same | mem
      · cases same
        rfl
      · cases ih mem

theorem reads_of_read (got : read t page m kinds words cap = .ok (.ok values)) :
    Reads page m kinds words cap values := by
  induction kinds generalizing words cap values with
  | nil =>
      cases got
      exact .nil words cap
  | cons kind kinds ih =>
      cases kind with
      | word =>
          cases words with
          | nil => cases got
          | cons w words =>
              obtain ⟨later, rest, rfl⟩ := cons_ok got
              exact .word w (ih rest)
      | cap =>
          cases cap with
          | none => cases got
          | some c =>
              obtain ⟨later, rest, rfl⟩ := cons_ok got
              exact .cap c (ih rest)
      | str =>
          cases words with
          | nil => cases got
          | cons w words =>
              cases page with
              | none => cases got
              | some view =>
                  obtain ⟨bytes?, found, got⟩ := of_bind_ok got
                  split at got
                  · cases got
                  · rename_i s decoded
                    obtain ⟨bytes, rfl, decoded⟩ := Option.bind_eq_some_iff.mp decoded
                    obtain ⟨later, rest, rfl⟩ := cons_ok got
                    refine .str rfl ?_ (ih rest)
                    rw [Utf8.encode_of_decode? decoded]
                    exact Memory.hasString_of_readString found

theorem cap_of_decode {message : Message} {c : Cap}
    (decoded : decode t kinds message page m = .ok (.ok values)) (mem : .cap c ∈ values) :
    message.cap = some c := (reads_of_read decoded).cap_eq mem

end Paged

/-! ### Messages without a page -/

namespace Inline

/-- Reading values of these kinds from these words gives these values. -/
inductive Reads : List Kind → List UInt64 → List Value → Prop
  | nil (words : List UInt64) : Reads [] words []
  | word {kinds : List Kind} {words : List UInt64} {values : List Value} (w : UInt64)
      (rest : Reads kinds words values) : Reads (.word :: kinds) (w :: words) (.word w :: values)
  | str {kinds : List Kind} {packed words : List UInt64} {values : List Value} {length : UInt64}
      {s : String} (size : packed.length = Word.countFor length.toNat)
      (found : Utf8.encode s = (Word.unpack packed).take length.toNat)
      (rest : Reads kinds words values) :
      Reads (.str :: kinds) (length :: packed ++ words) (.str s :: values)

variable {t : MessageType} {kinds : List Kind} {words : List UInt64} {values : List Value}

theorem Reads.kinds_eq (reads : Reads kinds words values) : values.map Value.kind = kinds := by
  induction reads with
  | nil => rfl
  | word _ _ ih => exact congrArg (Kind.word :: ·) ih
  | str _ _ _ ih => exact congrArg (Kind.str :: ·) ih

theorem reads_of_read (got : read t kinds words = .ok values) : Reads kinds words values := by
  induction kinds generalizing words values with
  | nil =>
      cases got
      exact .nil words
  | cons kind kinds ih =>
      cases kind with
      | cap => cases got
      | word =>
          cases words with
          | nil => cases got
          | cons w words =>
              obtain ⟨later, rest, rfl⟩ := of_map_ok got
              exact .word w (ih rest)
      | str =>
          cases words with
          | nil => cases got
          | cons length words =>
              simp only [read] at got
              split at got
              · cases got
              · rename_i room
                split at got
                · cases got
                · rename_i s decoded
                  obtain ⟨later, rest, rfl⟩ := of_map_ok got
                  rw [← List.take_append_drop (Word.countFor length.toNat) words]
                  refine .str ?_ (Utf8.encode_of_decode? decoded) (ih rest)
                  rw [List.length_take]
                  omega

/-- Words are only added at the end. -/
theorem addAll_words {width : Nat} {words' : List UInt64}
    (added : addAll width values words = .ok words') : ∃ more, words' = words ++ more := by
  induction values generalizing words with
  | nil =>
      cases added
      exact ⟨[], (List.append_nil _).symm⟩
  | cons value rest ih =>
      cases value with
      | cap c => cases added
      | word w =>
          simp only [addAll] at added
          split at added
          · obtain ⟨more, same⟩ := ih added
            exact ⟨w :: more, by rw [same, List.append_assoc, List.singleton_append]⟩
          · cases added
      | str s =>
          simp only [addAll] at added
          split at added
          · cases added
          · obtain ⟨more, same⟩ := ih added
            exact ⟨_, by rw [same, List.append_assoc]⟩

/-- The tag of a message is the first word. -/
theorem tag_encode {tag : UInt64} {width : Nat} {message : Message}
    (encoded : encode tag values width = .ok message) : message.tag = tag := by
  obtain ⟨words, added, finished⟩ := of_bind_ok encoded
  cases finished
  obtain ⟨more, rfl⟩ := addAll_words added
  rfl

end Inline

end Conduit

/-
# Messages are read back

What is written into a message is read back from it, and whether values can be written is known
beforehand. Over shared memory they fill a slot (`slot_round_trips`), and over an endpoint the
words of a letter and a page (`page_round_trips`). The two theorems say exactly which values can
be written, what the message and the page hold then, which value is to blame if they cannot, and
that reading gives the values back. A slot may hold any words the peer likes: whatever is read
from it could have been written by this end as well.
-/

import Conduit.Proofs.Call.Dispatch
import Conduit.Proofs.Call.Fitting
import Conduit.Proofs.Call.Reading
import Conduit.Proofs.Call.Shared.Checked
import Conduit.Proofs.Memory.Access

namespace Conduit

/-! ### Slots -/

namespace Inline

variable {t : MessageType} {tag : UInt64} {width : Nat} {values : List Value} {kinds : List Kind}
  {words : List UInt64} {message : Message}

/-- The bytes of a value in a slot: a string has its length in front, and zeros behind it up to
the end of its last word. -/
def bytesFor : Value → List UInt8
  | .word w => Word.toBytes w
  | .str s =>
      let bytes := Utf8.encode s
      Word.toBytes (UInt64.ofNat bytes.length) ++ bytes ++
        List.replicate (Word.size * Word.countFor bytes.length - bytes.length) 0
  | .cap _ => []

theorem unpack_append (words more : List UInt64) :
    Word.unpack (words ++ more) = Word.unpack words ++ Word.unpack more := List.flatMap_append

theorem unpack_wordsFor (v : Value) : Word.unpack (wordsFor v) = bytesFor v := by
  cases v with
  | word w => exact List.append_nil _
  | cap c => rfl
  | str s =>
      change Word.toBytes _ ++ Word.unpack (body (Utf8.encode s)) = _
      rw [body, Word.unpack_pack (length_le_countFor _), bytesFor, List.append_assoc]

theorem unpack_flatMap_wordsFor (values : List Value) :
    Word.unpack (values.flatMap wordsFor) = values.flatMap bytesFor := by
  induction values with
  | nil => rfl
  | cons v rest ih =>
      rw [List.flatMap_cons, unpack_append, ih, unpack_wordsFor, List.flatMap_cons]

theorem unpack_zeros (count : Nat) :
    Word.unpack (List.replicate count 0) = List.replicate (Word.size * count) 0 := by
  induction count with
  | zero => rfl
  | succ count ih =>
      have zeros : Word.toBytes 0 = List.replicate Word.size 0 := by decide
      rw [Nat.mul_succ, Nat.add_comm (Word.size * count),
        ← List.replicate_append_replicate (n := Word.size), ← ih, ← zeros, List.replicate_succ]
      exact List.flatMap_cons

/-- A message that fills a slot: the tag, the values, and zeros. -/
structure Filled (t : MessageType) (tag : UInt64) (values : List Value) (width : Nat)
    (message : Message) : Prop where
  full : message.words.length = width
  bytes : Word.unpack message.words = Word.toBytes tag ++ values.flatMap bytesFor ++
    List.replicate (Word.size * (width - size values)) 0
  capless : message.cap = none
  reads : decode t (values.map Value.kind) message = .ok values

theorem filled_of_encode (small : width < Memory.wordLimit) (fits : Fits width values)
    (encoded : encode tag values width = .ok message) : Filled t tag values width message := by
  have room := fits.room
  have addressed : width * Word.size < 2 ^ 64 := by
    unfold Memory.wordLimit at small
    unfold Word.size
    omega
  rw [encode_eq fits] at encoded
  obtain rfl := Except.ok.inj encoded
  refine ⟨?_, ?_, rfl, ?_⟩
  · rw [List.length_append, List.length_cons, List.length_replicate, Nat.add_comm _ 1,
      length_flatMap_wordsFor, Nat.add_sub_cancel' room]
  · rw [unpack_append, unpack_zeros, ← unpack_flatMap_wordsFor]
    rfl
  · rw [← length_flatMap_wordsFor] at room
    exact read_wordsFor fits.capless (Nat.le_of_add_left_le room) addressed _

/-- What was read takes no more words than there were. -/
theorem Reads.fits (reads : Reads kinds words values) :
    .cap ∉ values.map Value.kind ∧ (values.flatMap wordsFor).length ≤ words.length := by
  induction reads with
  | nil => exact ⟨List.not_mem_nil, Nat.zero_le _⟩
  | word w _ ih =>
      refine ⟨?_, ?_⟩
      · rw [List.map_cons, List.mem_cons, not_or]
        exact ⟨nofun, ih.1⟩
      · rw [List.flatMap_cons, List.length_append, List.length_cons, Nat.add_comm]
        exact Nat.succ_le_succ ih.2
  | @str kinds packed words values length s size found _ ih =>
      have whole : (Utf8.encode s).length = length.toNat := by
        rw [found, List.length_take, Word.length_unpack, size]
        refine Nat.min_eq_left ?_
        unfold Word.countFor Word.size
        omega
      refine ⟨?_, ?_⟩
      · rw [List.map_cons, List.mem_cons, not_or]
        exact ⟨nofun, ih.1⟩
      · rw [List.flatMap_cons, List.length_append, length_wordsFor_str, whole, ← size,
          List.length_append, List.length_cons, Nat.add_comm 1]
        exact Nat.add_le_add_left ih.2 _

/-- The values of a call fill a slot exactly if none is a capability and there are enough words:
one for the tag, one for each word, and for each string one and as many as its bytes need. Then
they are read back, and all that they leave of the slot is zero. Otherwise the first value that is
to blame decides what is wrong. And whatever the peer put into a slot, no step of reading it goes
outside, and what is read can be written into such a slot and read back. -/
theorem slot_round_trips (t : MessageType) (tag : UInt64) (one : 1 ≤ width)
    (small : width < Memory.wordLimit) :
    (∀ values, (∃ message, encode tag values width = .ok message) ↔ Fits width values) ∧
    (∀ values message, encode tag values width = .ok message →
      Filled t tag values width message) ∧
    (∀ values e, encode tag values width = .error e ↔ Offends width values e) ∧
    ∀ (message : Message) (kinds : List Kind), message.words.length = width →
      decodeChecked t kinds message = .ok (decode t kinds message) ∧
      ∀ values, decode t kinds message = .ok values → values.map Value.kind = kinds ∧
        ∃ again, encode tag values width = .ok again ∧ decode t kinds again = .ok values := by
  have succeeds (values : List Value) :
      (∃ message, encode tag values width = .ok message) ↔ Fits width values := by
    refine ⟨fun ⟨message, encoded⟩ => ?_, fun fits => ⟨_, encode_eq fits⟩⟩
    by_contra unfit
    obtain ⟨e, offends⟩ := exists_offends one unfit
    cases (encode_offended offends).symm.trans encoded
  have filled (values : List Value) (message : Message)
      (encoded : encode tag values width = .ok message) : Filled t tag values width message :=
    filled_of_encode small ((succeeds values).mp ⟨message, encoded⟩) encoded
  refine ⟨succeeds, filled, fun values e => ⟨fun refused => ?_, encode_offended⟩,
    fun message kinds full => ⟨decodeChecked_eq t kinds (full ▸ one) (full ▸ small), ?_⟩⟩
  · have unfit : ¬ Fits width values := by
      intro fits
      cases (encode_eq fits).symm.trans refused
    obtain ⟨e', offends⟩ := exists_offends one unfit
    cases (encode_offended offends).symm.trans refused
    exact offends
  · intro values decoded
    have reads := reads_of_read decoded
    obtain ⟨capless, room⟩ := reads.fits
    have fits : Fits width values := by
      refine ⟨capless, ?_⟩
      rw [List.length_tail, full] at room
      rw [← length_flatMap_wordsFor]
      omega
    refine ⟨reads.kinds_eq, _, encode_eq fits, ?_⟩
    rw [← reads.kinds_eq]
    exact (filled values _ (encode_eq fits)).reads

/-- A string with a zero byte and one of two bytes, in the narrowest slot that holds them. -/
theorem slot_round_trips_full : encode 7 [.str "a\u0000b", .word 5, .str "ä"] 6 =
      .ok ⟨[7, 3, 0x620061, 5, 2, 0xa4c3], none⟩ ∧
    decode ⟨7⟩ [.str, .word, .str] ⟨[7, 3, 0x620061, 5, 2, 0xa4c3], none⟩ =
      .ok [.str "a\u0000b", .word 5, .str "ä"] ∧
    encode 7 [.str "a\u0000b", .word 5, .str "ä"] 5 = .error .stringTooLong := by
  obtain ⟨succeeds, filled, -, -⟩ := slot_round_trips ⟨7⟩ 7 (show 1 ≤ 6 by decide) (by decide)
  obtain ⟨-, -, refused, -⟩ := slot_round_trips ⟨7⟩ 7 (show 1 ≤ 5 by decide) (by decide)
  have encoded : encode 7 [.str "a\u0000b", .word 5, .str "ä"] 6 =
      .ok ⟨[7, 3, 0x620061, 5, 2, 0xa4c3], none⟩ := by decide
  refine ⟨encoded, (filled _ _ encoded).reads, (refused _ _).mpr ?_⟩
  exact ⟨[.str "a\u0000b", .word 5], .str "ä", [], rfl, ⟨by decide, by decide⟩,
    fun fits => absurd fits.room (by decide), rfl⟩

end Inline

/-! ### Letters with a page -/

namespace Paged

variable {t : MessageType} {tag : UInt64} {page : Option View} {values : List Value}
  {message : Message} {m m' : Memory} {view : View}

/-- Memory differs at most in the page, if there is one. -/
def InPage (page : Option View) (m m' : Memory) : Prop :=
  match page with
  | none => m' = m
  | some view => m.OnlyWithin m' view 0 view.words

theorem InPage.refl (page : Option View) (m : Memory) : InPage page m m := by
  cases page with
  | none => rfl
  | some view => exact Memory.OnlyWithin.refl m view 0 view.words

theorem exists_str_of_spaceOf (taken : 0 < spaceOf values) : ∃ s, Value.str s ∈ values := by
  induction values with
  | nil => exact absurd taken (Nat.lt_irrefl 0)
  | cons value rest ih =>
      cases value with
      | str s => exact ⟨s, List.mem_cons_self⟩
      | word w =>
          obtain ⟨s, mem⟩ := ih (by rwa [spaceOf_word] at taken)
          exact ⟨s, List.mem_cons_of_mem _ mem⟩
      | cap c =>
          obtain ⟨s, mem⟩ := ih (by rwa [spaceOf_cap] at taken)
          exact ⟨s, List.mem_cons_of_mem _ mem⟩

/-- What strings need: without a page there must be none, and in a page each takes its bytes and
one more. -/
def Room (page : Option View) (values : List Value) : Prop :=
  match page with
  | none => ∀ s, .str s ∉ values
  | some view => (∀ s, .str s ∈ values → 0 ∉ Utf8.encode s) ∧ spaceOf values ≤ view.bytes

theorem tidy_iff : Tidy page values ↔ Room page values := by
  cases page with
  | none =>
      refine ⟨fun tidy s mem => ?_, fun bare => ⟨fun s mem => absurd mem (bare s),
        fun s mem => absurd mem (bare s)⟩⟩
      obtain ⟨view, known, -⟩ := tidy.2 s mem
      cases known
  | some view =>
      refine ⟨fun tidy => ⟨tidy.1, ?_⟩, fun ⟨clean, room⟩ => ⟨clean, fun _ _ => ⟨view, rfl, room⟩⟩⟩
      rcases Nat.eq_zero_or_pos (spaceOf values) with none | taken
      · exact none ▸ Nat.zero_le view.bytes
      · obtain ⟨s, mem⟩ := exists_str_of_spaceOf taken
        obtain ⟨_, known, room⟩ := tidy.2 s mem
        cases known
        exact room

/-- The strings of tidy values go into the page. -/
theorem Tidy.inPage (tidy : Tidy page values) (held : ∀ view, page = some view → m.Holds view) :
    InPage page m (imprint page m 0 (image values)) := by
  cases page with
  | none => rfl
  | some view =>
      refine Memory.OnlyWithin.putRun (held view rfl) ?_
      rw [Nat.zero_add, length_image]
      exact (tidy_iff.mp tidy).2

/-- A message and a page that hold values. The words of the values stand behind the tag, with
zeros up to the end. The page begins with the strings, one behind the other, each with a zero
byte at its end. The word of a string says where it lies, and behind the strings the page is as
it was. -/
structure Laid (t : MessageType) (tag : UInt64) (page : Option View) (values : List Value)
    (message : Message) (m m' : Memory) : Prop where
  words : message.words = tag :: wordsFrom 0 values ++
    List.replicate (Binding.valueWords - wordsOf values) 0
  cap : message.cap = carried values
  image : ∀ view, page = some view → ∀ k (hk : k < (image values).length),
    m'.byte view k = (image values)[k]
  strings : ∀ before s after, values = before ++ .str s :: after → ∃ view w, page = some view ∧
    message.words[wordsOf before + 1]? = some w ∧ w.toNat = spaceOf before ∧
    m'.HasString view (spaceOf before) (Utf8.encode s)
  beyond : ∀ view, page = some view → ∀ k, spaceOf values ≤ k → m'.byte view k = m.byte view k
  reads : decode t (values.map Value.kind) message page m' = .ok (.ok values)

/-- A string that is written among others lies behind those before it. -/
theorem hasString_image (held : m.Holds view) {before after : List Value} {s : String}
    (nonzero : 0 ∉ Utf8.encode s) (room : spaceOf (before ++ .str s :: after) ≤ view.bytes) :
    (m.putRun view 0 (image (before ++ .str s :: after))).HasString view (spaceOf before)
      (Utf8.encode s) := by
  have inside : 0 + (image (before ++ .str s :: after)).length ≤ view.bytes := by
    rwa [Nat.zero_add, length_image]
  have split : image (before ++ .str s :: after) =
      image before ++ (Utf8.encode s ++ 0 :: image after) := image_append _ _
  have shown (k : Nat) (hk : k < (Utf8.encode s ++ 0 :: image after).length) :
      (m.putRun view 0 (image (before ++ .str s :: after))).byte view (spaceOf before + k) =
        (Utf8.encode s ++ 0 :: image after)[k] := by
    have within : spaceOf before + k < (image (before ++ .str s :: after)).length := by
      rw [split, List.length_append, length_image]
      exact Nat.add_lt_add_left hk _
    have place := Memory.byte_putRun_inside held inside within
    rw [Nat.zero_add] at place
    rw [place, List.getElem_of_eq split, List.getElem_append_right (by rw [length_image]; omega)]
    congr 1
    rw [length_image, Nat.add_sub_cancel_left]
  refine ⟨?_, fun k hk => ?_, ?_, nonzero⟩
  · rw [spaceOf_append, spaceOf_str] at room
    omega
  · rw [shown k (by rw [List.length_append]; omega), List.getElem_append_left hk]
  · rw [shown _ (by rw [List.length_append, List.length_cons]; omega),
      List.getElem_append_right (Nat.le_refl _)]
    simp only [Nat.sub_self, List.getElem_cons_zero]

/-- Tidy values are written, and then the message and the page hold them. -/
theorem laid_of_tidy (t : MessageType) (tag : UInt64) (tidy : Tidy page values)
    (simple : Binding.fits (values.map Value.kind) = true) (mapped : Rpc.Mapped m page) :
    ∃ message,
      encode t tag values page m = .ok (.ok message, imprint page m 0 (image values)) ∧
      Laid t tag page values message m (imprint page m 0 (image values)) := by
  have held := fun view known => (mapped view known).1
  have encoded := encode_eq simple held t tag tidy
  refine ⟨_, encoded, ?_⟩
  obtain ⟨result, m', ran, -, holding, -⟩ := encode_cases t tag values mapped
  obtain ⟨rfl, rfl⟩ := Prod.mk.inj (Except.ok.inj (encoded.symm.trans ran))
  have inside (view : View) (known : page = some view) :
      0 + (image values).length ≤ view.bytes := by
    subst known
    rw [Nat.zero_add, length_image]
    exact (tidy_iff.mp tidy).2
  refine ⟨rfl, rfl, ?_, ?_, ?_, (holding _ rfl).reads⟩
  · rintro view rfl k hk
    have place := Memory.byte_putRun_inside (held view rfl) (inside view rfl) hk
    rwa [Nat.zero_add] at place
  · rintro before s after rfl
    have mem : Value.str s ∈ before ++ .str s :: after :=
      List.mem_append_right _ List.mem_cons_self
    obtain ⟨view, rfl, room⟩ := tidy.2 s mem
    refine ⟨view, UInt64.ofNat (spaceOf before), rfl, ?_, ?_,
      hasString_image (held view rfl) (tidy.1 s mem) room⟩
    · rw [wordsFrom_append, Nat.zero_add, ← length_wordsFrom 0 before]
      simp [wordsFrom]
    · refine UInt64.toNat_ofNat_of_lt' ?_
      have small := (mapped view rfl).2
      rw [spaceOf_append, spaceOf_str] at room
      unfold View.bytes Word.size at room
      unfold Memory.wordLimit at small
      change _ < 2 ^ 64
      omega
  · rintro view rfl k behind
    refine Memory.byte_putRun_outside (held view rfl) (inside view rfl) (.inr ?_)
    rwa [Nat.zero_add, length_image]

/-- Values of a simple binding are written exactly if their strings lie together in the page and
have no zero byte; without a page, if there are no strings. Then they are read back from the
message and the page, whatever was in the page before. Otherwise the first string that is to
blame decides what is wrong. Either way nothing outside the page changes. -/
theorem page_round_trips (t : MessageType) (tag : UInt64)
    (simple : Binding.fits (values.map Value.kind) = true) (mapped : Rpc.Mapped m page) :
    ∃ result m', encode t tag values page m = .ok (result, m') ∧ InPage page m m' ∧
      ((∃ message, result = .ok message) ↔ Room page values) ∧
      (∀ message, result = .ok message → Laid t tag page values message m m') ∧
      ∀ e, result = .error e ↔ Offends t page values e := by
  have held := fun view known => (mapped view known).1
  rw [← tidy_iff]
  by_cases tidy : Tidy page values
  · obtain ⟨message, encoded, laid⟩ := laid_of_tidy t tag tidy simple mapped
    refine ⟨.ok message, _, encoded, tidy.inPage held, iff_of_true ⟨message, rfl⟩ tidy, ?_, ?_⟩
    · intro message' same
      rwa [← Except.ok.inj same]
    · refine fun e => ⟨nofun, fun offends => ?_⟩
      obtain ⟨before, after, -, -, refused⟩ := encode_offended simple held tag offends
      cases encoded.symm.trans refused
  · obtain ⟨e, offends⟩ := exists_offends t tidy
    obtain ⟨before, after, -, clean, refused⟩ := encode_offended simple held tag offends
    refine ⟨.error e, _, refused, clean.inPage held, iff_of_false ?_ tidy, nofun, ?_⟩
    · rintro ⟨message, same⟩
      cases same
    · refine fun e' => ⟨fun same => Except.error.inj same ▸ offends, fun offends' => ?_⟩
      obtain ⟨_, _, -, -, refused'⟩ := encode_offended simple held tag offends'
      exact (Prod.mk.inj (Except.ok.inj (refused.symm.trans refused'))).1

/-- Two strings that fill a page to its last byte, and one byte too much for it. -/
theorem page_round_trips_full :
    encode ⟨7⟩ 7 [.str "ab", .word 9, .str "äö"] (some ⟨0, 0, 1⟩) ⟨#[#[0xffffffffffffffff]]⟩ =
        .ok (.ok ⟨[7, 0, 9, 3], none⟩, ⟨#[#[0x00b6c3a4c3006261]]⟩) ∧
      decode ⟨7⟩ [.str, .word, .str] ⟨[7, 0, 9, 3], none⟩ (some ⟨0, 0, 1⟩)
        ⟨#[#[0x00b6c3a4c3006261]]⟩ = .ok (.ok [.str "ab", .word 9, .str "äö"]) ∧
      ∃ m', encode ⟨7⟩ 7 [.str "abc", .word 9, .str "äö"] (some ⟨0, 0, 1⟩)
        ⟨#[#[0xffffffffffffffff]]⟩ = .ok (.error .stringTooLong, m') := by
  have mapped : Rpc.Mapped ⟨#[#[0xffffffffffffffff]]⟩ (some ⟨0, 0, 1⟩) := by
    rintro view same
    obtain rfl := Option.some.inj same
    exact ⟨Nat.le_refl 1, by decide⟩
  have simple (s : String) : Binding.fits ([.str s, .word 9, .str "äö"].map Value.kind) = true := rfl
  have encoded : encode ⟨7⟩ 7 [.str "ab", .word 9, .str "äö"] (some ⟨0, 0, 1⟩)
      ⟨#[#[0xffffffffffffffff]]⟩ =
        .ok (.ok ⟨[7, 0, 9, 3], none⟩, ⟨#[#[0x00b6c3a4c3006261]]⟩) := by rfl
  obtain ⟨result, m', ran, -, -, laid, -⟩ := page_round_trips ⟨7⟩ 7 (simple "ab") mapped
  obtain ⟨rfl, rfl⟩ := Prod.mk.inj (Except.ok.inj (encoded.symm.trans ran))
  refine ⟨encoded, (laid _ rfl).reads, ?_⟩
  obtain ⟨result, m', ran, -, -, -, refused⟩ := page_round_trips ⟨7⟩ 7 (simple "abc") mapped
  have clean (s : String) (mem : .str s ∈ [Value.str "abc", .word 9]) : 0 ∉ Utf8.encode s := by
    rcases List.mem_cons.mp mem with same | mem
    · cases same
      decide
    · cases List.mem_singleton.mp mem
  refine ⟨m', ?_⟩
  rw [ran, (refused .stringTooLong).mpr ?_]
  exact ⟨[.str "abc", .word 9], "äö", [], rfl, tidy_iff.mpr ⟨clean, by decide⟩,
    fun tidy => absurd (tidy_iff.mp tidy).2 (by decide), rfl⟩

end Paged

end Conduit

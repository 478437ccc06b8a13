/-
# Where byte strings begin and end in a stream

All that a party says is the messages of the byte strings that it sent, one string after
the other, and the mark of the end if it closed the stream (`transcript`). Reading them
message by message, one knows how many byte strings have begun (`starts`) and whether the
end was announced (`closes`). Nothing in the messages of a byte string is taken for
a beginning or for the end, since its length says where it ends, and no part of them but
the whole leaves nothing to come. So where nothing is to come, what was read is the
messages of the strings that have begun (`eq_strings`), and what was read when the end
was announced is the whole transcript (`eq_transcript`).
-/

import Conduit.Proofs.Stream.Wire

namespace Conduit

namespace Stream

/-- A message between byte strings that announces the end of the stream. -/
def isClose (left : UInt64) (words : List UInt64) : Bool :=
  left == 0 && words.headD 0 == closeMark

/-- A message between byte strings that starts one. -/
def isStart (left : UInt64) (words : List UInt64) : Bool :=
  left == 0 && words.headD 0 != closeMark

/-- One of the messages announces the end of the stream. -/
def closes (left : UInt64) : List (List UInt64) → Bool
  | [] => false
  | words :: rest => isClose left words || closes (scan left words).2 rest

/-- How many byte strings the messages start. -/
def starts (left : UInt64) : List (List UInt64) → Nat
  | [] => 0
  | words :: rest => (isStart left words).toNat + starts (scan left words).2 rest

/-- All messages of a party that sent these byte strings and may have closed the stream. -/
def transcript (width : Nat) (sent : List (List UInt8)) (closed : Bool) : List (List UInt64) :=
  sent.flatMap (wireForm width) ++ if closed then [closeWords width] else []

theorem closes_append (left : UInt64) (first second : List (List UInt64)) :
    closes left (first ++ second) =
      (closes left first || closes (decode left first).2 second) := by
  induction first generalizing left with
  | nil => rfl
  | cons words first ih => simp only [List.cons_append, closes, decode, ih, Bool.or_assoc]

theorem starts_append (left : UInt64) (first second : List (List UInt64)) :
    starts left (first ++ second) = starts left first + starts (decode left first).2 second := by
  induction first generalizing left with
  | nil => exact (Nat.zero_add _).symm
  | cons words first ih => simp only [List.cons_append, starts, decode, ih, Nat.add_assoc]

/-- Between byte strings one more message starts the next one, unless it has the mark of the
end. -/
theorem starts_concat {read : List (List UInt64)} (between : (decode 0 read).2 = 0)
    (words : List UInt64) : starts 0 (read ++ [words]) =
      starts 0 read + (words.headD 0 != closeMark).toNat := by
  rw [starts_append, between, starts, starts, Nat.add_zero, isStart, beq_self_eq_true,
    Bool.true_and]

variable {width : Nat} {data : List UInt8} {sent : List (List UInt8)} {closed : Bool}
  {read later : List (List UInt64)}

/-! ### The messages of one byte string -/

/-- After some of the further messages of a byte string, the others are the further
messages of the bytes that are left; none of them is a beginning or an end. -/
theorem chunks_split {bound : Nat} (short : data.length < UInt64.size)
    (split : (chunksWithin bound (width * Word.size) data).map (Word.pack width) = read ++ later) :
    starts (UInt64.ofNat data.length) read = 0 ∧ closes (UInt64.ofNat data.length) read = false ∧
      ∃ (bound' : Nat) (left : List UInt8), left.length ≤ data.length ∧
        (decode (UInt64.ofNat data.length) read).2 = UInt64.ofNat left.length ∧
        later = (chunksWithin bound' (width * Word.size) left).map (Word.pack width) := by
  induction read generalizing bound data with
  | nil => exact ⟨rfl, rfl, bound, data, Nat.le_refl _, rfl, split.symm⟩
  | cons words read ih =>
      cases bound with
      | zero => cases split
      | succ bound =>
          cases data with
          | nil => cases split
          | cons b data =>
              simp only [chunksWithin, List.map_cons, List.cons_append, List.cons.injEq] at split
              obtain ⟨rfl, split⟩ := split
              have some : UInt64.ofNat (b :: data).length ≠ 0 := by
                intro none
                have zero := congrArg UInt64.toNat none
                rw [UInt64.toNat_ofNat_of_lt' short] at zero
                exact absurd zero (Nat.succ_ne_zero _)
              have fewer : ((b :: data).drop (width * Word.size)).length ≤ (b :: data).length := by
                rw [List.length_drop]
                exact Nat.sub_le _ _
              have scanned : scan (UInt64.ofNat (b :: data).length)
                  (Word.pack width ((b :: data).take (width * Word.size))) =
                    ((b :: data).take (width * Word.size),
                      UInt64.ofNat ((b :: data).drop (width * Word.size)).length) := by
                rw [scan, if_neg some, portion_pack width short]
              obtain ⟨noStart, noClose, bound', left, less, comes, rest⟩ :=
                ih (Nat.lt_of_le_of_lt fewer short) split
              refine ⟨?_, ?_, bound', left, Nat.le_trans less fewer, ?_, rest⟩
              · rw [starts, isStart, beq_eq_false_iff_ne.mpr some, scanned]
                exact (Nat.zero_add _).trans noStart
              · rw [closes, isClose, beq_eq_false_iff_ne.mpr some, scanned]
                exact noClose
              · rw [decode, scanned]
                exact comes

/-- Once the first message of a byte string is read, one string has begun; and if nothing
is to come, all its messages were read. -/
theorem wireForm_split (short : data.length < Ring.lengthLimit)
    (split : wireForm width data = read ++ later) (begun : read ≠ []) :
    starts 0 read = 1 ∧ closes 0 read = false ∧ ((decode 0 read).2 = 0 → later = []) := by
  have small : data.length < UInt64.size := Nat.lt_trans short (by decide)
  have mark := ofNat_ne_closeMark short
  cases read with
  | nil => exact absurd rfl begun
  | cons words read =>
      simp only [wireForm, List.cons_append, List.cons.injEq] at split
      obtain ⟨rfl, split⟩ := split
      have fewer : (data.drop (headRoom width)).length ≤ data.length := by
        rw [List.length_drop]
        exact Nat.sub_le _ _
      have scanned : scan 0 (headWords width data) =
          (data.take (headRoom width), UInt64.ofNat (data.drop (headRoom width)).length) := by
        unfold scan headWords
        rw [if_pos rfl, List.headD_cons, if_neg mark, List.tail_cons]
        exact portion_pack (width - 1) small
      obtain ⟨noStart, noClose, bound, left, less, comes, rest⟩ :=
        chunks_split (Nat.lt_of_le_of_lt fewer small) split
      refine ⟨?_, ?_, ?_⟩
      · rw [starts, scanned, noStart, isStart, headWords, List.headD_cons,
          bne_iff_ne.mpr mark]
        rfl
      · rw [closes, scanned, noClose, isClose, headWords, List.headD_cons,
          beq_eq_false_iff_ne.mpr mark]
        rfl
      · intro none
        simp only [decode, scanned] at none
        rw [comes] at none
        have zero := congrArg UInt64.toNat none
        rw [UInt64.toNat_ofNat_of_lt' (Nat.lt_of_le_of_lt (Nat.le_trans less fewer) small)] at zero
        have empty : left = [] := List.length_eq_zero_iff.mp zero
        rw [rest, empty]
        cases bound with
        | zero => rfl
        | succ bound => rfl

theorem wireForm_ne_nil (width : Nat) (data : List UInt8) : wireForm width data ≠ [] :=
  List.cons_ne_nil _ _

theorem starts_wireForm (width : Nat) (short : data.length < Ring.lengthLimit) :
    starts 0 (wireForm width data) = 1 ∧ closes 0 (wireForm width data) = false := by
  obtain ⟨start, noClose, -⟩ := wireForm_split short (List.append_nil (wireForm width data)).symm
    (wireForm_ne_nil width data)
  exact ⟨start, noClose⟩

/-! ### The messages of many -/

/-- The messages of byte strings are read as those strings. -/
theorem decode_strings (sent : List (List UInt8)) (wide : 1 ≤ width)
    (short : ∀ data ∈ sent, data.length < Ring.lengthLimit) :
    decode 0 (sent.flatMap (wireForm width)) = (sent.flatten, 0) ∧
      starts 0 (sent.flatMap (wireForm width)) = sent.length ∧
      closes 0 (sent.flatMap (wireForm width)) = false := by
  induction sent with
  | nil => exact ⟨rfl, rfl, rfl⟩
  | cons data sent ih =>
      have here := short data List.mem_cons_self
      obtain ⟨decoded, start, noClose⟩ := ih fun data mem => short data (List.mem_cons_of_mem _ mem)
      have string := decode_wireForm wide here
      obtain ⟨one, open'⟩ := starts_wireForm width here
      rw [List.flatMap_cons]
      refine ⟨?_, ?_, ?_⟩
      · rw [decode_append, string, decoded, List.flatten_cons]
      · rw [starts_append, string, start, one, List.length_cons, Nat.add_comm]
      · rw [closes_append, string, noClose, open']
        rfl

/-- Where nothing is to come and the end was not announced, what was read is the messages
of the byte strings that have begun. -/
theorem eq_strings (wide : 1 ≤ width) (short : ∀ data ∈ sent, data.length < Ring.lengthLimit)
    (whole : read ++ later = transcript width sent closed) (between : (decode 0 read).2 = 0)
    (noClose : closes 0 read = false) :
    starts 0 read ≤ sent.length ∧
      read = (sent.take (starts 0 read)).flatMap (wireForm width) := by
  induction sent generalizing read with
  | nil =>
      rw [transcript, List.flatMap_nil, List.nil_append] at whole
      cases read with
      | nil => exact ⟨Nat.le_refl _, rfl⟩
      | cons words read =>
          cases closed with
          | false => cases whole
          | true =>
              simp only [if_true, List.cons_append, List.cons.injEq, List.append_eq_nil_iff] at whole
              obtain ⟨rfl, -⟩ := whole
              cases noClose
  | cons data sent ih =>
      rw [transcript, List.flatMap_cons, List.append_assoc] at whole
      have here := short data List.mem_cons_self
      have shorter : ∀ data ∈ sent, data.length < Ring.lengthLimit := fun data mem =>
        short data (List.mem_cons_of_mem _ mem)
      have string := decode_wireForm wide here
      obtain ⟨one, -⟩ := starts_wireForm width here
      -- What was read has the whole first string in front, or is a part of its messages.
      have front : read = [] ∨ ∃ further, read = wireForm width data ++ further ∧
          further ++ later = transcript width sent closed := by
        rcases List.append_eq_append_iff.mp whole with ⟨missing, split, rest⟩ | ⟨further, split, rest⟩
        · cases read with
          | nil => exact .inl rfl
          | cons words read =>
              have all := (wireForm_split here split (List.cons_ne_nil _ _)).2.2 between
              rw [all, List.append_nil] at split
              rw [all, List.nil_append] at rest
              exact .inr ⟨[], by rw [split, List.append_nil], rest⟩
        · exact .inr ⟨further, split, rest.symm⟩
      rcases front with rfl | ⟨further, rfl, rest⟩
      · exact ⟨Nat.zero_le _, rfl⟩
      · rw [decode_append, string] at between
        rw [closes_append, string, Bool.or_eq_false_iff] at noClose
        obtain ⟨count, same⟩ := ih shorter rest between noClose.2
        rw [starts_append, string, one, Nat.add_comm, List.length_cons, List.take_succ_cons,
          List.flatMap_cons]
        exact ⟨Nat.succ_le_succ count, congrArg _ same⟩

/-- Between byte strings comes the first message of the next one, or the end. -/
theorem next_message {words : List UInt64} (wide : 1 ≤ width)
    (short : ∀ data ∈ sent, data.length < Ring.lengthLimit)
    (whole : read ++ (words :: later) = transcript width sent closed)
    (between : (decode 0 read).2 = 0) (noClose : closes 0 read = false) :
    words = closeWords width ∨
      ∃ data, sent[starts 0 read]? = some data ∧ words = headWords width data := by
  obtain ⟨count, same⟩ := eq_strings wide short whole between noClose
  have parts : transcript width sent closed =
      (sent.take (starts 0 read)).flatMap (wireForm width) ++
        transcript width (sent.drop (starts 0 read)) closed := by
    rw [transcript, transcript, ← List.append_assoc, ← List.flatMap_append, List.take_append_drop]
  rw [parts, ← same] at whole
  have next := List.append_cancel_left whole
  cases left : sent.drop (starts 0 read) with
  | nil =>
      rw [left, transcript, List.flatMap_nil, List.nil_append] at next
      cases closed with
      | false => cases next
      | true =>
          simp only [if_true, List.cons.injEq] at next
          exact .inl next.1
  | cons data further =>
      rw [left, transcript, List.flatMap_cons, wireForm, List.cons_append, List.cons_append,
        List.cons.injEq] at next
      refine .inr ⟨data, ?_, next.1⟩
      have head := congrArg List.head? left
      rw [List.head?_drop] at head
      exact head

/-- What was read when the end was announced is all there is. -/
theorem eq_transcript (wide : 1 ≤ width) (short : ∀ data ∈ sent, data.length < Ring.lengthLimit)
    (whole : read ++ later = transcript width sent closed) (close : closes 0 read = true) :
    closed = true ∧ later = [] ∧ decode 0 read = (sent.flatten, 0) ∧
      starts 0 read = sent.length := by
  obtain ⟨strings, count, noClose⟩ := decode_strings sent wide short
  rcases List.append_eq_append_iff.mp whole with ⟨missing, split, -⟩ | ⟨further, split, rest⟩
  · rw [split, closes_append, close] at noClose
    cases noClose
  · cases further with
    | nil =>
        rw [List.append_nil] at split
        rw [split, noClose] at close
        cases close
    | cons words further =>
        cases closed with
        | false => cases rest
        | true =>
            simp only [if_true, List.cons_append, List.cons.injEq, List.nil_eq,
              List.append_eq_nil_iff] at rest
            obtain ⟨rfl, rfl, rfl⟩ := rest
            refine ⟨rfl, rfl, ?_, ?_⟩
            · rw [split, decode_append, strings, decode_closeWords, List.append_nil]
            · rw [split, starts_append, strings, count]
              rfl

/-- Between byte strings, each message begins one or announces the end. -/
theorem eq_nil_of_starts (none : starts 0 read = 0) (noClose : closes 0 read = false) :
    read = [] := by
  cases read with
  | nil => rfl
  | cons words read =>
      rw [starts, isStart] at none
      rw [closes, isClose, Bool.or_eq_false_iff] at noClose
      cases mark : words.headD 0 == closeMark with
      | true =>
          rw [mark] at noClose
          cases noClose.1
      | false =>
          have start : (words.headD 0 != closeMark) = true := by rw [bne, mark]; rfl
          rw [start] at none
          exact absurd none (by simp)

/-- The end is announced by the last message of a closed stream. -/
theorem closes_transcript (wide : 1 ≤ width)
    (short : ∀ data ∈ sent, data.length < Ring.lengthLimit) :
    closes 0 (transcript width sent closed) = closed := by
  obtain ⟨strings, -, noClose⟩ := decode_strings sent wide short
  rw [transcript, closes_append, strings, noClose]
  cases closed with
  | false => rfl
  | true => rfl

end Stream

end Conduit

/-
# The two ends of a channel over shared memory

`Joined m a b toB toA` says that `a` and `b` are the two ends of one channel in
the memory `m`, with the payloads `toB` in flight from `a` to `b` and `toA` in
flight back. Each operation of an end has one law that says what it answers and
which queues are in flight afterwards; `Joined.symm` gives the law for the other
end. `joined_overHalves` says that the two ends made over one new frame are joined
with nothing in flight.
-/

import Conduit.Proofs.Slots.Lane

namespace Conduit

namespace SlotChannel

/-- The lane that this end writes. -/
def outgoing (c : SlotChannel) : Lane := ⟨c.sendPane, c.slotWords, c.slots⟩

/-- The lane that this end reads. -/
def incoming (c : SlotChannel) : Lane := ⟨c.recvPane, c.slotWords, c.slots⟩

/-- Two ends of one channel, and the payloads in flight to each of them. -/
structure Joined (m : Memory) (a b : SlotChannel) (toB toA : List (List UInt64)) : Prop where
  forth : a.outgoing = b.incoming
  back : b.outgoing = a.incoming
  apart : a.sendPane.Apart a.recvPane
  carriesB : b.incoming.Carries m b.recvIndex toB
  carriesA : a.incoming.Carries m a.recvIndex toA
  cursorA : a.sendIndex = b.incoming.tail b.recvIndex toB
  cursorB : b.sendIndex = a.incoming.tail a.recvIndex toA

/-- The bells after this end sent something. -/
def announce (c : SlotChannel) (bells : Bells) : Bells :=
  match c.remoteBell with
  | none => bells
  | some bell => bells.ring bell

variable {m : Machine} {a b : SlotChannel} {toB toA : List (List UInt64)}

theorem length_pad (width : Nat) (payload : List UInt64) : (pad width payload).length = width := by
  simp only [pad, List.length_take, List.length_append, List.length_replicate]
  omega

/-- A payload that fills its slot is not padded. -/
theorem pad_eq_self {width : Nat} {payload : List UInt64} (full : payload.length = width) :
    pad width payload = payload := by
  rw [pad, full, Nat.sub_self, List.replicate_zero, List.append_nil, ← full, List.take_length]

namespace Joined

variable {memory : Memory}

theorem symm (joined : Joined memory a b toB toA) : Joined memory b a toA toB where
  forth := joined.back
  back := joined.forth
  apart := by
    have forth := congrArg Lane.pane joined.forth
    have back := congrArg Lane.pane joined.back
    change a.sendPane = b.recvPane at forth
    change b.sendPane = a.recvPane at back
    rw [← forth, back]
    exact joined.apart.symm
  carriesB := joined.carriesA
  carriesA := joined.carriesB
  cursorA := joined.cursorB
  cursorB := joined.cursorA

theorem slotWords_eq (joined : Joined memory a b toB toA) : a.slotWords = b.slotWords :=
  congrArg Lane.slotWords joined.forth

theorem slots_eq (joined : Joined memory a b toB toA) : a.slots = b.slots :=
  congrArg Lane.slots joined.forth

theorem recvPane_eq (joined : Joined memory a b toB toA) : b.recvPane = a.sendPane :=
  (congrArg Lane.pane joined.forth).symm

/-- No more payloads are in flight than the pane has slots. -/
theorem bounded (joined : Joined memory a b toB toA) : toB.length ≤ a.slots := by
  rw [joined.slots_eq]
  exact joined.carriesB.bounded

/-- The writer's lane is the reader's lane, with the writer's cursor after the last
payload. -/
theorem outgoing_carries (joined : Joined memory a b toB toA) :
    a.outgoing.Carries memory b.recvIndex toB := by
  rw [joined.forth]
  exact joined.carriesB

theorem cursor_lt (joined : Joined memory a b toB toA) : a.sendIndex < a.outgoing.slots := by
  rw [joined.cursorA, joined.forth]
  exact Lane.slot_lt joined.carriesB.pos _ _

end Joined

/-! ### Sending -/

/-- A payload that does not fit is refused, and nothing changes. -/
theorem send_oversized {payload : List UInt64} (long : a.payloadWords < payload.length)
    (m : Machine) : a.send payload m = .ok (.error .invalidSize, a, m) := by
  rw [send, if_pos long]

theorem load_sendFlag (joined : Joined m.memory a b toB toA) :
    m.memory.load a.sendPane (a.base a.sendIndex) =
      .ok (m.memory.word a.sendPane (a.outgoing.place a.sendIndex 0)) := by
  have laid := joined.outgoing_carries.toLaid
  have room := laid.room
  have inPane := Lane.place_lt laid joined.cursor_lt (show 0 < a.outgoing.slotWords by omega)
  exact Memory.load_eq laid.held inPane

theorem isOpen_sendFlag (joined : Joined m.memory a b toB toA) :
    (SlotFlag.ofWord (m.memory.word a.sendPane (a.outgoing.place a.sendIndex 0))).isOpen =
      decide (toB.length < a.slots) := by
  have isOpen := joined.outgoing_carries.isOpen_tail
  have cursor := joined.cursorA
  rw [← joined.forth] at cursor
  rwa [← cursor] at isOpen

/-- A full channel refuses a payload for the moment, and nothing changes. -/
theorem send_full (joined : Joined m.memory a b toB toA) {payload : List UInt64}
    (fits : payload.length ≤ a.payloadWords) (full : toB.length = a.slots) :
    a.send payload m = .ok (.ok false, a, m) := by
  have isOpen := isOpen_sendFlag joined
  rw [full, decide_eq_false (Nat.lt_irrefl _)] at isOpen
  rw [send, if_neg (Nat.not_lt.mpr fits)]
  simp only [load_sendFlag joined, bind, Except.bind, isOpen]
  rfl

/-- The end and the machine after a payload was sent. -/
def afterSend (a : SlotChannel) (payload : List UInt64) (m : Machine) : SlotChannel × Machine :=
  ({ a with sendIndex := (a.sendIndex + 1) % a.slots },
   { m with
     memory := a.outgoing.fill m.memory a.sendIndex (pad a.payloadWords payload)
     bells := a.announce m.bells })

/-- A channel with a free slot accepts a payload that fits. -/
theorem send_space (joined : Joined m.memory a b toB toA) {payload : List UInt64}
    (fits : payload.length ≤ a.payloadWords) (space : toB.length < a.slots) :
    a.send payload m = .ok (.ok true, a.afterSend payload m) := by
  have isOpen := isOpen_sendFlag joined
  have laid := joined.outgoing_carries.toLaid
  have room := laid.room
  have width : (pad a.payloadWords payload).length = a.outgoing.slotWords - 1 :=
    length_pad _ _
  have last := Lane.place_lt laid joined.cursor_lt
    (show a.outgoing.slotWords - 1 < a.outgoing.slotWords by omega)
  have inPane : a.outgoing.place a.sendIndex 1 + (pad a.payloadWords payload).length ≤
      a.sendPane.words := by
    change _ < a.sendPane.words at last
    unfold Lane.place at last ⊢
    omega
  have stored : m.memory.storeAll a.sendPane (a.base a.sendIndex + 1) (pad a.payloadWords payload) =
      .ok (m.memory.putAll a.sendPane (a.outgoing.place a.sendIndex 1)
        (pad a.payloadWords payload)) := Memory.storeAll_eq laid.held inPane
  have flagged : (m.memory.putAll a.sendPane (a.outgoing.place a.sendIndex 1)
      (pad a.payloadWords payload)).store a.sendPane (a.base a.sendIndex) SlotFlag.sentWord =
        .ok (a.outgoing.fill m.memory a.sendIndex (pad a.payloadWords payload)) :=
    Memory.store_eq (laid.held.putAll _ _ _)
      (Lane.place_lt laid joined.cursor_lt (show 0 < a.outgoing.slotWords by omega)) _
  rw [decide_eq_true space] at isOpen
  rw [send, if_neg (Nat.not_lt.mpr fits)]
  simp only [load_sendFlag joined, bind, Except.bind, isOpen, if_true, stored, flagged]
  rfl

/-- What is sent is behind what was in flight, and nothing happens in the other
direction. -/
theorem Joined.afterSend (joined : Joined m.memory a b toB toA) (payload : List UInt64)
    (space : toB.length < a.slots) :
    Joined (a.afterSend payload m).2.memory (a.afterSend payload m).1 b
      (toB ++ [pad a.payloadWords payload]) toA where
  forth := joined.forth
  back := joined.back
  apart := joined.apart
  carriesB := by
    have fits : (pad a.payloadWords payload).length = a.outgoing.slotWords - 1 := length_pad _ _
    have cursor := joined.cursorA
    have filled := joined.outgoing_carries.fill space fits
    rw [← joined.forth] at cursor
    rw [← cursor, joined.forth] at filled
    rw [SlotChannel.afterSend, joined.forth]
    exact filled
  carriesA := joined.carriesA.away_fill joined.outgoing_carries.toLaid joined.apart
    joined.cursor_lt (length_pad _ _)
  cursorA := by
    rw [Lane.tail_append, ← joined.cursorA]
    change (a.sendIndex + 1) % a.slots = (a.sendIndex + 1) % b.slots
    rw [joined.slots_eq]
  cursorB := joined.cursorB

/-! ### Receiving -/

theorem load_recvFlag (joined : Joined m.memory a b toB toA) :
    m.memory.load b.recvPane (b.base b.recvIndex) =
      .ok (m.memory.word b.recvPane (b.incoming.place b.recvIndex 0)) := by
  have laid := joined.carriesB.toLaid
  have room := laid.room
  have inPane := Lane.place_lt laid joined.carriesB.headed
    (show 0 < b.incoming.slotWords by omega)
  exact Memory.load_eq laid.held inPane

/-- An end can receive exactly if a payload is in flight to it. -/
theorem canReceive_eq (joined : Joined m.memory a b toB toA) :
    b.canReceive m = .ok (!toB.isEmpty) := by
  have sent : SlotFlag.ofWord (m.memory.word b.recvPane (b.incoming.place b.recvIndex 0)) = .sent
      ↔ toB ≠ [] := joined.carriesB.flag_head
  simp only [canReceive, load_recvFlag joined, bind, Except.bind, pure, Except.pure, sent]
  cases toB <;> rfl

/-- Nothing is received when nothing is in flight. -/
theorem receive_nil (joined : Joined m.memory a b [] toA) (limit : Nat) :
    b.receive limit m = .ok (none, b, m) := by
  have sent : SlotFlag.ofWord (m.memory.word b.recvPane (b.incoming.place b.recvIndex 0)) ≠ .sent :=
    fun h => joined.carriesB.flag_head.mp h rfl
  simp only [receive, load_recvFlag joined, bind, Except.bind, if_neg sent]
  rfl

/-- The end and the machine after a payload was received. -/
def afterReceive (b : SlotChannel) (m : Machine) : SlotChannel × Machine :=
  ({ b with recvIndex := (b.recvIndex + 1) % b.slots },
   { m with memory := b.incoming.release m.memory b.recvIndex })

/-- The oldest payload in flight is received, cut to the limit. -/
theorem receive_cons {words : List UInt64} {rest : List (List UInt64)}
    (joined : Joined m.memory a b (words :: rest) toA) (limit : Nat) :
    b.receive limit m = .ok (some (words.take limit), b.afterReceive m) := by
  have carries := joined.carriesB
  have laid := carries.toLaid
  have room := laid.room
  have sent : SlotFlag.ofWord (m.memory.word b.recvPane (b.incoming.place b.recvIndex 0)) = .sent :=
    carries.flag_head.mpr (List.cons_ne_nil _ _)
  have last := Lane.place_lt laid carries.headed
    (show b.incoming.slotWords - 1 < b.incoming.slotWords by omega)
  have inPane : b.incoming.place b.recvIndex 1 + min limit b.payloadWords ≤ b.recvPane.words := by
    change _ < b.recvPane.words at last
    change b.incoming.place b.recvIndex 1 + min limit (b.incoming.slotWords - 1) ≤ _
    unfold Lane.place at last ⊢
    omega
  have cut : (List.range (min limit b.payloadWords)).map
      (fun k => m.memory.word b.incoming.pane (b.incoming.place b.recvIndex 1 + k)) =
        words.take limit := by
    rw [← carries.payload_head, Lane.payload, ← List.map_take, List.take_range]
    rfl
  have loaded : m.memory.loadAll b.recvPane (b.base b.recvIndex + 1) (min limit b.payloadWords) =
      .ok (words.take limit) := by
    rw [← cut]
    exact Memory.loadAll_eq laid.held inPane
  have stored : m.memory.store b.recvPane (b.base b.recvIndex) SlotFlag.receivedWord =
      .ok (b.incoming.release m.memory b.recvIndex) :=
    Memory.store_eq laid.held
      (Lane.place_lt laid carries.headed (show 0 < b.incoming.slotWords by omega)) _
  simp only [receive, load_recvFlag joined, bind, Except.bind, if_pos sent, loaded, stored]
  rfl

/-- What is received is no longer in flight, and nothing happens in the other
direction. -/
theorem Joined.afterReceive {words : List UInt64} {rest : List (List UInt64)}
    (joined : Joined m.memory a b (words :: rest) toA) :
    Joined (b.afterReceive m).2.memory a (b.afterReceive m).1 rest toA where
  forth := joined.forth
  back := joined.back
  apart := joined.apart
  carriesB := joined.carriesB.release
  carriesA := by
    apply joined.carriesA.away_release joined.carriesB.toLaid
    · change b.recvPane.Apart a.recvPane
      rw [joined.recvPane_eq]
      exact joined.apart
    · exact joined.carriesB.headed
  cursorA := joined.cursorA.trans (Lane.tail_cons _ _ _)
  cursorB := joined.cursorB

/-! ### The two ends over one new frame -/

/-- An end over two panes has the sizes that were asked for, in panes of whole slots. -/
theorem create_ok {slotBytes : Nat} {sendPane recvPane : View} {c : SlotChannel}
    (created : create slotBytes sendPane recvPane = .ok c) :
    ∃ slots, 0 < slots ∧ 2 ≤ slotBytes / Word.size ∧
      sendPane.words = slots * (slotBytes / Word.size) ∧
      recvPane.words = slots * (slotBytes / Word.size) ∧
      c = { sendPane, recvPane, slotWords := slotBytes / Word.size, slots } := by
  unfold create at created
  split at created
  · cases created
  split at created
  · cases created
  split at created
  · cases created
  split at created
  · cases created
  rename_i valid sendWhole _ equal
  injection created with created
  simp only [validSlotBytes, Bool.not_eq_true', Bool.and_eq_false_iff, not_or,
    Bool.not_eq_false, beq_iff_eq, decide_eq_true_eq] at valid
  obtain ⟨⟨aligned, room⟩, -⟩ := valid
  simp only [Bool.or_eq_true, decide_eq_true_eq, not_or, Decidable.not_not, View.isEmpty,
    beq_iff_eq] at sendWhole
  rw [Decidable.not_not, View.bytes, View.bytes] at equal
  obtain ⟨slotWords, rfl⟩ := Nat.dvd_of_mod_eq_zero aligned
  obtain ⟨slots, hslots⟩ := Nat.dvd_of_mod_eq_zero sendWhole.2
  have pos : 0 < Word.size := by decide
  rw [Nat.mul_div_cancel_left _ pos] at room ⊢
  have words : sendPane.words = slots * slotWords := by
    rw [View.bytes, Nat.mul_comm sendPane.words, Nat.mul_assoc] at hslots
    rw [Nat.eq_of_mul_eq_mul_left pos hslots, Nat.mul_comm]
  have same := Nat.eq_of_mul_eq_mul_right pos equal
  refine ⟨slots, ?_, room, words, same ▸ words, ?_⟩
  · rcases Nat.eq_zero_or_pos slots with none | some
    · rw [none, Nat.zero_mul] at words
      exact absurd words sendWhole.1
    · exact some
  · rw [← created]
    congr 1
    · exact Nat.mul_div_cancel_left _ pos
    · have some : 0 < slotWords := by omega
      rw [View.bytes, words, Nat.mul_comm, ← Nat.mul_assoc, Nat.mul_comm _ slots,
        Nat.mul_assoc, Nat.mul_div_cancel _ (Nat.mul_pos pos some)]

/-- An end over two panes has slots of a size that slots can have. -/
theorem valid_of_create {bytes : Nat} {sendPane recvPane : View} {c : SlotChannel}
    (created : create bytes sendPane recvPane = .ok c) : validSlotBytes bytes = true := by
  cases valid : validSlotBytes bytes with
  | true => rfl
  | false =>
      rw [create, valid] at created
      cases created

/-- A slot of an end over two panes is not larger than the largest. -/
theorem slotBytes_le_of_create {bytes : Nat} {sendPane recvPane : View} {c : SlotChannel}
    (created : create bytes sendPane recvPane = .ok c) : c.slotBytes ≤ maxSlotBytes := by
  have valid := valid_of_create created
  obtain ⟨slots, -, -, -, -, rfl⟩ := create_ok created
  rw [validSlotBytes, Bool.and_eq_true, decide_eq_true_eq] at valid
  exact Nat.le_trans (Nat.div_mul_le_self _ _) valid.2

/-- The halves of a view lie side by side. -/
theorem splitAt_half {v low high : View} (split : v.splitAt (v.bytes / 2) = some (low, high)) :
    low.Apart high ∧ low.block = v.block ∧ high.block = v.block ∧
      v.start ≤ low.start ∧ v.start ≤ high.start ∧
      low.start + low.words ≤ v.start + v.words ∧ high.start + high.words ≤ v.start + v.words := by
  unfold View.splitAt View.window at split
  simp only [Nat.zero_mod, Nat.zero_div, ne_eq, not_true_eq_false, false_or, Nat.zero_add,
    Nat.add_zero, Option.bind_eq_bind, Option.pure_def] at split
  split at split
  · cases split
  split at split
  · cases split
  rename_i lowFits
  simp only [Option.bind_some] at split
  split at split
  · split at split
    · cases split
    split at split
    · cases split
    rename_i highFits
    simp only [Option.bind_some, Option.some.injEq, Prod.mk.injEq] at split
    obtain ⟨rfl, rfl⟩ := split
    generalize v.bytes / 2 / Word.size = cut at *
    generalize (v.bytes - v.bytes / 2) / Word.size = left at *
    refine ⟨.inr (.inl ?_), rfl, rfl, ?_, ?_, ?_, ?_⟩ <;> simp only [] <;> omega
  · cases split

/-- The two ends over one new frame are joined, with nothing in flight. -/
theorem joined_overHalves {memory memory' : Memory} {bytes slotBytes : Nat} {v : View}
    (allocated : memory.allocate bytes = .ok (v, memory'))
    (first : overHalves v slotBytes true = .ok a) (second : overHalves v slotBytes false = .ok b) :
    Joined memory' a b [] [] := by
  obtain ⟨-, held, zero⟩ := Memory.allocate_ok allocated
  unfold overHalves at first second
  cases split : v.splitAt (v.bytes / 2) with
  | none => simp [split] at first
  | some halves =>
      obtain ⟨low, high⟩ := halves
      obtain ⟨apart, lowBlock, highBlock, lowStart, highStart, lowEnd, highEnd⟩ := splitAt_half split
      simp only [split, if_true, Bool.false_eq_true, if_false] at first second
      obtain ⟨slots, pos, room, lowWords, highWords, rfl⟩ := create_ok first
      obtain ⟨slots', -, -, lowWords', -, rfl⟩ := create_ok second
      have count : slots' = slots := Nat.eq_of_mul_eq_mul_right (by omega)
        (lowWords'.symm.trans highWords)
      subst count
      have laidIn : ∀ w : View, w.block = v.block → v.start ≤ w.start →
          w.start + w.words ≤ v.start + v.words → w.words = slots' * (slotBytes / Word.size) →
          (Lane.mk w (slotBytes / Word.size) slots').Carries memory' 0 [] := by
        intro w block start stop words
        have sameBlock : memory'.blockOf w = memory'.blockOf v := by
          unfold Memory.blockOf
          rw [block]
        apply Lane.Laid.carries_nil
        · refine ⟨?_, room, pos, words⟩
          unfold Memory.Holds at held ⊢
          rw [sameBlock]
          exact Nat.le_trans stop held
        · intro k _
          have place : ∀ i, memory'.word w i = memory'.word v (w.start - v.start + i) := fun i => by
            unfold Memory.word
            rw [sameBlock]
            congr 1
            omega
          rw [Lane.flag, place, zero]
          rfl
      exact {
        forth := rfl
        back := rfl
        apart := apart
        carriesB := laidIn low lowBlock lowStart lowEnd lowWords
        carriesA := laidIn high highBlock highStart highEnd highWords
        cursorA := (Nat.zero_mod _).symm
        cursorB := (Nat.zero_mod _).symm }

end SlotChannel

end Conduit

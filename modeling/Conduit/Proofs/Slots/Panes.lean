/-
# One end of a channel whose peer may do anything

What a peer writes into the panes cannot be relied on. `Fitted` is what remains: the panes
lie in memory and consist of whole slots, and the cursors are slots. It says nothing of the
words in the panes, so it holds whatever is written there, and every operation of the end
keeps it. Each operation then answers (`Fitted.send`, `Fitted.receive`,
`Fitted.canReceive`, `Fitted.takeNotification`): no word is looked up outside the panes.
-/

import Conduit.Proofs.Slots.Channel

namespace Conduit

namespace Lane

variable {l : Lane} {m : Memory} {k : Nat}

theorem Laid.grows {m' : Memory} (laid : l.Laid m) (grows : m.Grows m') : l.Laid m' :=
  { laid with held := grows.holds _ laid.held }

theorem grows_putAll (m : Memory) (v : View) (i : Nat) (words : List UInt64) :
    m.Grows (m.putAll v i words) := by
  induction words generalizing m i with
  | nil => exact .refl m
  | cons x rest ih => exact (Memory.grows_put m v i x).trans (ih _ _)

theorem grows_fill (m : Memory) (k : Nat) (words : List UInt64) : m.Grows (l.fill m k words) :=
  (grows_putAll m _ _ words).trans (Memory.grows_put _ _ _ _)

theorem grows_release (m : Memory) (k : Nat) : m.Grows (l.release m k) := Memory.grows_put _ _ _ _

/-! ### What waits in a lane, whoever filled it -/

/-- Nothing waits behind a slot that is not sent. -/
theorem waiting_nil {head : Nat} (headed : head < l.slots) (vain : l.flag m head ≠ .sent) :
    l.waiting m head = [] := by
  obtain ⟨slots, count⟩ : ∃ slots, l.slots = slots + 1 := ⟨l.slots - 1, by omega⟩
  unfold waiting
  rw [count, List.range_succ_eq_map, List.map_cons, slot_zero headed, List.takeWhile_cons_of_neg,
    List.map_nil]
  simpa using vain

/-- The message in the reader's slot waits before those that wait once it is given back. -/
theorem waiting_cons (laid : l.Laid m) {head : Nat} (headed : head < l.slots)
    (sent : l.flag m head = .sent) :
    l.waiting m head = l.payload m head :: l.waiting (l.release m head) (l.slot head 1) := by
  obtain ⟨slots, count⟩ : ∃ slots, l.slots = slots + 1 := ⟨l.slots - 1, by omega⟩
  -- The slots after the head, in the order in which they come.
  let others := (List.range slots).map fun i => l.slot head (i + 1)
  have apart : ∀ k ∈ others, k ≠ head := by
    intro k mem same
    obtain ⟨i, hi, rfl⟩ := List.mem_map.mp mem
    rw [List.mem_range] at hi
    have := slot_inj (show i + 1 < l.slots by omega) laid.pos (same.trans (slot_zero headed).symm)
    omega
  have before : (List.range l.slots).map (l.slot head) = head :: others := by
    rw [count, List.range_succ_eq_map, List.map_cons, slot_zero headed, List.map_map]
    rfl
  have after : (List.range l.slots).map (l.slot (l.slot head 1)) = others ++ [head] := by
    rw [count, List.range_succ, List.map_append, List.map_singleton, slot_next, ← count,
      slot_slots headed]
    exact congrArg (· ++ [head]) (List.map_congr_left fun i _ => slot_next head i)
  have flags : ∀ k, k ≠ head → l.flag (l.release m head) k = l.flag m k := fun k other => by
    rw [flag_release laid headed, if_neg other]
  have stops : ∀ some : List Nat, (∀ k ∈ some, k ≠ head) →
      (some ++ [head]).takeWhile (fun k => l.flag (l.release m head) k = .sent) =
        some.takeWhile fun k => l.flag m k = .sent := by
    intro some
    induction some with
    | nil =>
        intro _
        rw [List.nil_append, List.takeWhile_cons_of_neg]
        · rfl
        · rw [flag_release laid headed, if_pos rfl]
          decide
    | cons k some ih =>
        intro apart
        have kept := flags k (apart k List.mem_cons_self)
        have rest := ih fun k mem => apart k (List.mem_cons_of_mem _ mem)
        rw [List.cons_append, List.takeWhile_cons, List.takeWhile_cons, kept, rest]
  unfold waiting
  rw [before, after, stops others apart, List.takeWhile_cons_of_pos (by simpa using sent),
    List.map_cons]
  exact congrArg _ (List.map_congr_left fun k _ => (payload_release laid headed).symm)

end Lane

namespace SlotChannel

/-- The panes are divided into whole slots, and the cursors are among them. -/
structure Fitted (c : SlotChannel) (m : Memory) : Prop where
  sends : c.outgoing.Laid m
  receives : c.incoming.Laid m
  sendIndex : c.sendIndex < c.slots
  recvIndex : c.recvIndex < c.slots

namespace Fitted

variable {c : SlotChannel} {m : Machine}

/-- Nothing depends on the words in the panes. -/
theorem grows {memory memory' : Memory} (fitted : c.Fitted memory) (grows : memory.Grows memory') :
    c.Fitted memory' :=
  { fitted with sends := fitted.sends.grows grows, receives := fitted.receives.grows grows }

theorem create {slotBytes : Nat} {sendPane recvPane : View} {memory : Memory}
    (created : create slotBytes sendPane recvPane = .ok c) (sends : memory.Holds sendPane)
    (receives : memory.Holds recvPane) : c.Fitted memory := by
  obtain ⟨slots, pos, room, sendWords, recvWords, rfl⟩ := create_ok created
  exact ⟨⟨sends, room, pos, sendWords⟩, ⟨receives, room, pos, recvWords⟩, pos, pos⟩

theorem afterSend (fitted : c.Fitted m.memory) (payload : List UInt64) :
    (c.afterSend payload m).1.Fitted (c.afterSend payload m).2.memory := by
  have grown := fitted.grows (Lane.grows_fill (l := c.outgoing) m.memory c.sendIndex
    (pad c.payloadWords payload))
  exact { grown with sendIndex := Nat.mod_lt _ fitted.sends.pos }

theorem afterReceive (fitted : c.Fitted m.memory) :
    (c.afterReceive m).1.Fitted (c.afterReceive m).2.memory := by
  have grown := fitted.grows (Lane.grows_release (l := c.incoming) m.memory c.recvIndex)
  exact { grown with recvIndex := Nat.mod_lt _ fitted.sends.pos }

/-- A payload is refused, or it fills the slot at the cursor. -/
theorem send (fitted : c.Fitted m.memory) (payload : List UInt64) :
    (∃ answer, answer ≠ .ok true ∧ c.send payload m = .ok (answer, c, m)) ∨
      c.send payload m = .ok (.ok true, c.afterSend payload m) := by
  by_cases fits : payload.length ≤ c.payloadWords
  · have laid := fitted.sends
    have room := laid.room
    have last := Lane.place_lt laid fitted.sendIndex
      (show c.outgoing.slotWords - 1 < c.outgoing.slotWords by omega)
    have width : (pad c.payloadWords payload).length = c.outgoing.slotWords - 1 := length_pad _ _
    have inPane : c.outgoing.place c.sendIndex 1 + (pad c.payloadWords payload).length ≤
        c.sendPane.words := by
      change _ < c.sendPane.words at last
      unfold Lane.place at last ⊢
      omega
    have first := Lane.place_lt laid fitted.sendIndex (show 0 < c.outgoing.slotWords by omega)
    have loaded : m.memory.load c.sendPane (c.base c.sendIndex) =
        .ok (m.memory.word c.sendPane (c.outgoing.place c.sendIndex 0)) :=
      Memory.load_eq laid.held first
    have stored : m.memory.storeAll c.sendPane (c.base c.sendIndex + 1)
        (pad c.payloadWords payload) = .ok (m.memory.putAll c.sendPane
          (c.outgoing.place c.sendIndex 1) (pad c.payloadWords payload)) :=
      Memory.storeAll_eq laid.held inPane
    have flagged : (m.memory.putAll c.sendPane (c.outgoing.place c.sendIndex 1)
        (pad c.payloadWords payload)).store c.sendPane (c.base c.sendIndex) SlotFlag.sentWord =
          .ok (c.outgoing.fill m.memory c.sendIndex (pad c.payloadWords payload)) :=
      Memory.store_eq (laid.held.putAll _ _ _) first _
    rw [SlotChannel.send, if_neg (Nat.not_lt.mpr fits)]
    simp only [loaded, bind, Except.bind]
    split
    · simp only [stored, flagged]
      exact .inr rfl
    · exact .inl ⟨.ok false, by simp, rfl⟩
  · rw [send_oversized (Nat.lt_of_not_le fits)]
    exact .inl ⟨.error .invalidSize, by simp, rfl⟩

theorem load_recvFlag (fitted : c.Fitted m.memory) :
    m.memory.load c.recvPane (c.base c.recvIndex) =
      .ok (m.memory.word c.recvPane (c.incoming.place c.recvIndex 0)) := by
  have room := fitted.receives.room
  exact Memory.load_eq fitted.receives.held
    (Lane.place_lt fitted.receives fitted.recvIndex (show 0 < c.incoming.slotWords by omega))

theorem canReceive_eq (fitted : c.Fitted m.memory) :
    c.canReceive m = .ok (decide (c.incoming.flag m.memory c.recvIndex = .sent)) := by
  simp only [SlotChannel.canReceive, fitted.load_recvFlag]
  rfl

theorem canReceive (fitted : c.Fitted m.memory) : ∃ ready, c.canReceive m = .ok ready :=
  ⟨_, fitted.canReceive_eq⟩

/-- The slot at the cursor is read and given back if it is sent. -/
theorem receive_eq (fitted : c.Fitted m.memory) (limit : Nat) :
    c.receive limit m = .ok (if c.incoming.flag m.memory c.recvIndex = .sent
      then (some ((c.incoming.payload m.memory c.recvIndex).take limit), c.afterReceive m)
      else (none, c, m)) := by
  have laid := fitted.receives
  have room := laid.room
  have last := Lane.place_lt laid fitted.recvIndex
    (show c.incoming.slotWords - 1 < c.incoming.slotWords by omega)
  have inPane : c.incoming.place c.recvIndex 1 + min limit c.payloadWords ≤ c.recvPane.words := by
    change _ < c.recvPane.words at last
    change _ + min limit (c.incoming.slotWords - 1) ≤ _
    unfold Lane.place at last ⊢
    omega
  have stored : m.memory.store c.recvPane (c.base c.recvIndex) SlotFlag.receivedWord =
      .ok (c.incoming.release m.memory c.recvIndex) :=
    Memory.store_eq laid.held
      (Lane.place_lt laid fitted.recvIndex (show 0 < c.incoming.slotWords by omega)) _
  have cut : (List.range (min limit c.payloadWords)).map
      (fun k => m.memory.word c.recvPane (c.incoming.place c.recvIndex 1 + k)) =
        (c.incoming.payload m.memory c.recvIndex).take limit := by
    rw [Lane.payload, ← List.map_take, List.take_range]
    rfl
  have loaded : m.memory.loadAll c.recvPane (c.base c.recvIndex + 1) (min limit c.payloadWords) =
      .ok ((c.incoming.payload m.memory c.recvIndex).take limit) := by
    rw [← cut]
    exact Memory.loadAll_eq laid.held inPane
  simp only [SlotChannel.receive, fitted.load_recvFlag, bind, Except.bind]
  by_cases sent : c.incoming.flag m.memory c.recvIndex = .sent
  · rw [if_pos sent, if_pos (show SlotFlag.ofWord (m.memory.word c.recvPane _) = .sent from sent)]
    simp only [loaded, stored]
    rfl
  · rw [if_neg sent, if_neg (show SlotFlag.ofWord (m.memory.word c.recvPane _) ≠ .sent from sent)]
    rfl

/-- Nothing waits, or the slot at the cursor is read and given back. -/
theorem receive (fitted : c.Fitted m.memory) (limit : Nat) :
    c.receive limit m = .ok (none, c, m) ∨
      ∃ words, c.receive limit m = .ok (some words, c.afterReceive m) := by
  rw [fitted.receive_eq limit]
  split
  · exact .inr ⟨_, rfl⟩
  · exact .inl rfl

theorem takeNotification (fitted : c.Fitted m.memory) :
    ∃ rung bells, c.takeNotification m = .ok (rung, { m with bells }) := by
  unfold SlotChannel.takeNotification
  split
  · exact ⟨_, _, rfl⟩
  · obtain ⟨ready, waiting⟩ := fitted.canReceive
    simp only [waiting]
    exact ⟨ready, m.bells, rfl⟩

end Fitted

end SlotChannel

end Conduit

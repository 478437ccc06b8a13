/-
# One direction of a channel over shared memory

A lane is a pane of shared memory divided into slots. The messages in flight are
not stored as such: they are the payloads of the slots that are marked sent.
`Carries l m head queue` says which queue a lane holds when its reader is at slot
`head`: going round from there, the first slots hold the queue in order and are
marked sent, and all others are open. The writer's cursor is then the slot after
the last message, so full and empty lanes, whose two cursors meet, are told apart
by the flags alone.

* `Carries.fill` — filling the writer's slot puts a message at the end.
* `Carries.release` — giving back the reader's slot takes the first message.
* `Carries.away_fill`, `Carries.away_release` — writes to another pane change nothing.
* `Carries.waiting_eq` — the queue is determined by the memory and the cursor.
-/

import Conduit.Proofs.Memory.Words
import Conduit.SlotChannel
import Mathlib.Data.List.GetD
import Mathlib.Data.Nat.ModEq

namespace Conduit

/-- One direction of a channel: its pane, and how the pane is divided into slots. -/
structure Lane where
  /-- The pane. -/
  pane : View
  /-- The number of words in a slot, the flag included. -/
  slotWords : Nat
  /-- The number of slots. -/
  slots : Nat

namespace Lane

variable {l : Lane} {m : Memory} {head : Nat} {queue : List (List UInt64)}

/-- The slot that comes `i` slots after `head`, going round. -/
def slot (l : Lane) (head i : Nat) : Nat := (head + i) % l.slots

/-- The word of the pane at a place of a slot; the flag is at place zero. -/
def place (l : Lane) (k j : Nat) : Nat := k * l.slotWords + j

/-- The flag of a slot. -/
def flag (l : Lane) (m : Memory) (k : Nat) : SlotFlag :=
  SlotFlag.ofWord (m.word l.pane (l.place k 0))

/-- The payload of a slot. -/
def payload (l : Lane) (m : Memory) (k : Nat) : List UInt64 :=
  (List.range (l.slotWords - 1)).map fun i => m.word l.pane (l.place k 1 + i)

/-- The memory after a slot is filled and marked sent. -/
def fill (l : Lane) (m : Memory) (k : Nat) (words : List UInt64) : Memory :=
  (m.putAll l.pane (l.place k 1) words).put l.pane (l.place k 0) SlotFlag.sentWord

/-- The memory after a slot is marked received. -/
def release (l : Lane) (m : Memory) (k : Nat) : Memory :=
  m.put l.pane (l.place k 0) SlotFlag.receivedWord

/-- The payloads of the slots that are marked sent, going round from the reader's slot
up to the first that is not. -/
def waiting (l : Lane) (m : Memory) (head : Nat) : List (List UInt64) :=
  (((List.range l.slots).map (l.slot head)).takeWhile fun k => l.flag m k = .sent).map (l.payload m)

/-- The pane lies in memory and consists of whole slots, each with room for a
payload. -/
structure Laid (l : Lane) (m : Memory) : Prop where
  held : m.Holds l.pane
  room : 2 ≤ l.slotWords
  pos : 0 < l.slots
  whole : l.pane.words = l.slots * l.slotWords

/-- The lane holds the queue for a reader at slot `head`. -/
structure Carries (l : Lane) (m : Memory) (head : Nat) (queue : List (List UInt64)) : Prop
    extends Laid l m where
  headed : head < l.slots
  bounded : queue.length ≤ l.slots
  filled : ∀ i (h : i < queue.length),
    l.flag m (l.slot head i) = .sent ∧ l.payload m (l.slot head i) = queue[i]
  vacant : ∀ i, queue.length ≤ i → i < l.slots → (l.flag m (l.slot head i)).isOpen = true

/-! ### Going round -/

theorem slot_lt (pos : 0 < l.slots) (head i : Nat) : l.slot head i < l.slots := Nat.mod_lt _ pos

theorem slot_zero (headed : head < l.slots) : l.slot head 0 = head := Nat.mod_eq_of_lt headed

theorem slot_slots (headed : head < l.slots) : l.slot head l.slots = head := by
  rw [slot, Nat.add_mod_right, Nat.mod_eq_of_lt headed]

/-- From the next slot on, everything is one slot nearer. -/
theorem slot_next (head i : Nat) : l.slot (l.slot head 1) i = l.slot head (i + 1) := by
  unfold slot
  rw [Nat.mod_add_mod]
  congr 1
  omega

/-- Within one round no slot comes twice. -/
theorem slot_inj {i j : Nat} (hi : i < l.slots) (hj : j < l.slots)
    (same : l.slot head i = l.slot head j) : i = j := by
  have cancel : Nat.ModEq l.slots i j := Nat.ModEq.add_left_cancel' head same
  exact Nat.ModEq.eq_of_lt_of_lt cancel hi hj

/-! ### Places in a pane -/

theorem place_lt {k j : Nat} (laid : l.Laid m) (hk : k < l.slots) (hj : j < l.slotWords) :
    l.place k j < l.pane.words := by
  have rows : (k + 1) * l.slotWords ≤ l.slots * l.slotWords := Nat.mul_le_mul_right _ hk
  rw [Nat.succ_mul] at rows
  rw [laid.whole, place]
  omega

/-- Two places are the same word only if they are the same place of the same slot. -/
theorem place_inj {k k' j j' : Nat} (hj : j < l.slotWords) (hj' : j' < l.slotWords)
    (same : l.place k j = l.place k' j') : k = k' ∧ j = j' := by
  have pos : 0 < l.slotWords := by omega
  have slotOf : ∀ k j, j < l.slotWords → l.place k j / l.slotWords = k := fun k j h => by
    rw [place, Nat.mul_comm, Nat.mul_add_div pos, Nat.div_eq_of_lt h, Nat.add_zero]
  have slots : k = k' := by rw [← slotOf k j hj, same, slotOf k' j' hj']
  subst slots
  exact ⟨rfl, Nat.add_left_cancel same⟩

/-! ### Filling and releasing a slot -/

section Writes

variable {k k' : Nat} {words : List UInt64}

theorem word_fill (laid : l.Laid m) (hk : k < l.slots) (fits : words.length = l.slotWords - 1)
    {j : Nat} (hj : j < l.slotWords) : (l.fill m k words).word l.pane (l.place k' j) =
      if k' ≠ k then m.word l.pane (l.place k' j)
      else if j = 0 then SlotFlag.sentWord else words.getD (j - 1) 0 := by
  have room := laid.room
  have last := place_lt laid hk (show l.slotWords - 1 < l.slotWords by omega)
  have inPane : l.place k 1 + words.length ≤ l.pane.words := by
    unfold place at last ⊢
    omega
  have held := laid.held.putAll l.pane (l.place k 1) words
  rw [fill, Memory.word_put held (place_lt laid hk (by omega))]
  by_cases other : k' = k
  · subst other
    by_cases first : j = 0
    · subst first
      simp
    · rw [if_neg, if_neg (by simp), if_neg first]
      · obtain ⟨i, rfl⟩ : ∃ i, j = i + 1 := ⟨j - 1, by omega⟩
        have shifted : l.place k' (i + 1) = l.place k' 1 + i := by
          unfold place
          omega
        rw [shifted, Memory.word_putAll_inside laid.held inPane (by omega), Nat.add_sub_cancel,
          List.getD_eq_getElem _ _ (by omega)]
      · rintro ⟨-, same⟩
        exact first (place_inj hj (by omega) (Nat.add_left_cancel same).symm).2
  · rw [if_neg, if_pos other]
    · apply Memory.word_putAll_outside laid.held inPane
      by_contra inside
      have hplace : l.place k' j = l.place k (l.place k' j - l.place k 0) := by
        unfold place at inside ⊢
        omega
      refine other (place_inj hj ?_ hplace).1
      unfold place at inside ⊢
      omega
    · rintro ⟨-, same⟩
      exact other (place_inj hj (by omega) (Nat.add_left_cancel same).symm).1

theorem word_release (laid : l.Laid m) (hk : k < l.slots) {j : Nat} (hj : j < l.slotWords) :
    (l.release m k).word l.pane (l.place k' j) =
      if k' = k ∧ j = 0 then SlotFlag.receivedWord else m.word l.pane (l.place k' j) := by
  have room := laid.room
  rw [release, Memory.word_put laid.held (place_lt laid hk (by omega))]
  by_cases same : k' = k ∧ j = 0
  · obtain ⟨rfl, rfl⟩ := same
    simp
  · rw [if_neg same, if_neg]
    rintro ⟨-, h⟩
    obtain ⟨hk, hj⟩ := place_inj (by omega) hj (Nat.add_left_cancel h)
    exact same ⟨hk.symm, hj.symm⟩

theorem flag_fill (laid : l.Laid m) (hk : k < l.slots) (fits : words.length = l.slotWords - 1) :
    l.flag (l.fill m k words) k' = if k' = k then .sent else l.flag m k' := by
  have room := laid.room
  rw [flag, word_fill laid hk fits (by omega)]
  by_cases same : k' = k
  · rw [if_neg (by simpa using same), if_pos rfl, if_pos same]
    rfl
  · rw [if_pos same, if_neg same, flag]

theorem payload_fill (laid : l.Laid m) (hk : k < l.slots)
    (fits : words.length = l.slotWords - 1) :
    l.payload (l.fill m k words) k' = if k' = k then words else l.payload m k' := by
  have shifted : ∀ i, l.place k' 1 + i = l.place k' (i + 1) := fun i => by
    unfold place
    omega
  unfold payload
  by_cases same : k' = k
  · rw [if_pos same]
    apply List.ext_getElem
    · simpa using fits.symm
    · intro i hi hi'
      simp only [List.length_map, List.length_range] at hi
      rw [List.getElem_map, List.getElem_range, shifted, word_fill laid hk fits (by omega),
        if_neg (by simpa using same), if_neg (by omega), Nat.add_sub_cancel,
        List.getD_eq_getElem _ _ hi']
  · rw [if_neg same]
    apply List.map_congr_left
    intro i hi
    rw [List.mem_range] at hi
    rw [shifted, word_fill laid hk fits (by omega), if_pos same]

theorem flag_release (laid : l.Laid m) (hk : k < l.slots) :
    l.flag (l.release m k) k' = if k' = k then .received else l.flag m k' := by
  have room := laid.room
  rw [flag, word_release laid hk (by omega)]
  by_cases same : k' = k
  · rw [if_pos ⟨same, rfl⟩, if_pos same]
    rfl
  · rw [if_neg (fun h => same h.1), if_neg same, flag]

theorem payload_release (laid : l.Laid m) (hk : k < l.slots) :
    l.payload (l.release m k) k' = l.payload m k' := by
  apply List.map_congr_left
  intro i hi
  rw [List.mem_range] at hi
  have shifted : l.place k' 1 + i = l.place k' (i + 1) := by
    unfold place
    omega
  rw [shifted, word_release laid hk (by omega), if_neg (by omega)]

theorem Laid.fill (laid : l.Laid m) (k : Nat) (words : List UInt64) :
    l.Laid (l.fill m k words) :=
  { laid with held := (laid.held.putAll _ _ _).put _ _ _ }

theorem Laid.release (laid : l.Laid m) (k : Nat) : l.Laid (l.release m k) :=
  { laid with held := laid.held.put _ _ _ }

end Writes

/-! ### The queue of a lane -/

/-- An empty lane of open slots carries the empty queue. -/
theorem Laid.carries_nil (laid : l.Laid m) (isOpen : ∀ k < l.slots, (l.flag m k).isOpen = true) :
    l.Carries m 0 [] :=
  { laid with
    headed := laid.pos
    bounded := Nat.zero_le _
    filled := fun i h => absurd h (Nat.not_lt_zero i)
    vacant := fun i _ _ => isOpen _ (slot_lt laid.pos 0 i) }

/-- The writer's slot, which is the one after the last message. -/
def tail (l : Lane) (head : Nat) (queue : List (List UInt64)) : Nat := l.slot head queue.length

/-- The writer's slot is open unless the lane is full. -/
theorem Carries.isOpen_tail (carries : l.Carries m head queue) :
    (l.flag m (l.tail head queue)).isOpen = decide (queue.length < l.slots) := by
  by_cases full : queue.length < l.slots
  · rw [decide_eq_true full]
    exact carries.vacant _ (Nat.le_refl _) full
  · have length : queue.length = l.slots := Nat.le_antisymm carries.bounded (by omega)
    have first := (carries.filled 0 (by have := carries.pos; omega)).1
    rw [slot_zero carries.headed] at first
    rw [decide_eq_false full, tail, length, slot_slots carries.headed, first]
    rfl

/-- The reader's slot is sent exactly if a message is in flight. -/
theorem Carries.flag_head (carries : l.Carries m head queue) :
    l.flag m head = .sent ↔ queue ≠ [] := by
  have zero := slot_zero carries.headed
  constructor
  · rintro sent rfl
    have isOpen := carries.vacant 0 (Nat.le_refl _) carries.pos
    rw [zero, sent] at isOpen
    cases isOpen
  · intro some
    have first := (carries.filled 0 (List.length_pos_iff.mpr some)).1
    rwa [zero] at first

theorem Carries.payload_head {words : List UInt64} {rest : List (List UInt64)}
    (carries : l.Carries m head (words :: rest)) : l.payload m head = words := by
  have first := (carries.filled 0 (Nat.zero_lt_succ _)).2
  rwa [slot_zero carries.headed] at first

/-- Filling the writer's slot of a lane that is not full puts a message at the end. -/
theorem Carries.fill (carries : l.Carries m head queue) (space : queue.length < l.slots)
    {words : List UInt64} (fits : words.length = l.slotWords - 1) :
    l.Carries (l.fill m (l.tail head queue) words) head (queue ++ [words]) := by
  have laid := carries.toLaid
  have inPane : l.tail head queue < l.slots := slot_lt laid.pos head queue.length
  refine { laid.fill _ _ with
    headed := carries.headed
    bounded := by
      rw [List.length_append, List.length_singleton]
      exact space
    filled := ?_
    vacant := ?_ }
  · intro i hi
    rw [List.length_append, List.length_singleton] at hi
    rw [flag_fill laid inPane fits, payload_fill laid inPane fits]
    by_cases last : i = queue.length
    · subst last
      simp [tail]
    · have other : l.slot head i ≠ l.tail head queue := fun h =>
        last (slot_inj (by omega) space h)
      rw [if_neg other, if_neg other, List.getElem_append_left (by omega)]
      exact carries.filled i (by omega)
  · intro i hi hround
    rw [List.length_append, List.length_singleton] at hi
    have other : l.slot head i ≠ l.tail head queue := fun h => by
      have := slot_inj hround space h
      omega
    rw [flag_fill laid inPane fits, if_neg other]
    exact carries.vacant i (by omega) hround

theorem tail_append (head : Nat) (queue : List (List UInt64)) (words : List UInt64) :
    l.tail head (queue ++ [words]) = (l.tail head queue + 1) % l.slots := by
  unfold tail slot
  rw [List.length_append, List.length_singleton, Nat.mod_add_mod]
  congr 1

/-- Giving back the reader's slot takes the first message; the slot becomes the last
one of the round. -/
theorem Carries.release {words : List UInt64} {rest : List (List UInt64)}
    (carries : l.Carries m head (words :: rest)) :
    l.Carries (l.release m head) (l.slot head 1) rest := by
  have laid := carries.toLaid
  have bounded := carries.bounded
  rw [List.length_cons] at bounded
  have ahead : ∀ i, i + 1 < l.slots → l.slot head (i + 1) ≠ head := fun i hi h => by
    have := slot_inj hi laid.pos (h.trans (slot_zero carries.headed).symm)
    omega
  refine { laid.release _ with
    headed := slot_lt laid.pos head 1
    bounded := by omega
    filled := ?_
    vacant := ?_ }
  · intro i hi
    rw [slot_next, flag_release laid carries.headed, payload_release laid carries.headed,
      if_neg (ahead i (by omega))]
    exact carries.filled (i + 1) (by simpa using hi)
  · intro i hi hround
    rw [slot_next, flag_release laid carries.headed]
    by_cases last : i + 1 = l.slots
    · rw [last, slot_slots carries.headed, if_pos rfl]
      rfl
    · rw [if_neg (ahead i (by omega))]
      exact carries.vacant (i + 1) (by simpa using hi) (by omega)

theorem tail_cons (head : Nat) (words : List UInt64) (rest : List (List UInt64)) :
    l.tail head (words :: rest) = l.tail (l.slot head 1) rest := by
  rw [tail, tail, slot_next, List.length_cons]

/-- Payloads in flight fill their slots. -/
theorem Carries.length_of_mem (carries : l.Carries m head queue) {words : List UInt64}
    (mem : words ∈ queue) : words.length = l.slotWords - 1 := by
  obtain ⟨i, hi, rfl⟩ := List.getElem_of_mem mem
  rw [← (carries.filled i hi).2, payload, List.length_map, List.length_range]

/-- The queue is determined by the memory and the reader's slot. -/
theorem Carries.waiting_eq (carries : l.Carries m head queue) : l.waiting m head = queue := by
  obtain ⟨free, slots⟩ := Nat.exists_eq_add_of_le carries.bounded
  have sent : ∀ k ∈ (List.range queue.length).map (l.slot head),
      decide (l.flag m k = .sent) = true := by
    intro k mem
    obtain ⟨i, hi, rfl⟩ := List.mem_map.mp mem
    exact decide_eq_true (carries.filled i (List.mem_range.mp hi)).1
  have stops : (((List.range free).map (queue.length + ·)).map (l.slot head)).takeWhile
      (fun k => decide (l.flag m k = .sent)) = [] := by
    cases free with
    | zero => rfl
    | succ free =>
        have isOpen := carries.vacant queue.length (Nat.le_refl _) (by omega)
        rw [List.range_succ_eq_map, List.map_cons, List.map_cons, List.takeWhile_cons_of_neg]
        intro sent
        rw [Nat.add_zero, decide_eq_true_eq] at sent
        rw [sent] at isOpen
        cases isOpen
  unfold waiting
  rw [slots, List.range_add, List.map_append, List.takeWhile_append_of_pos sent, stops,
    List.append_nil, List.map_map]
  apply List.ext_getElem
  · rw [List.length_map, List.length_range]
  · intro i hi hi'
    simp only [List.getElem_map, List.getElem_range, Function.comp]
    exact (carries.filled i hi').2

/-- A lane whose words are the same carries the same queue. -/
theorem Carries.congr (carries : l.Carries m head queue) {m' : Memory} (held : m'.Holds l.pane)
    (same : ∀ i < l.pane.words, m'.word l.pane i = m.word l.pane i) :
    l.Carries m' head queue := by
  have laid := carries.toLaid
  have flags : ∀ k < l.slots, l.flag m' k = l.flag m k := fun k hk => by
    have room := laid.room
    rw [flag, flag, same _ (place_lt laid hk (by omega))]
  have payloads : ∀ k < l.slots, l.payload m' k = l.payload m k := fun k hk => by
    apply List.map_congr_left
    intro i hi
    rw [List.mem_range] at hi
    have inPane := place_lt laid hk (show i + 1 < l.slotWords by omega)
    unfold place at inPane ⊢
    exact same _ (by omega)
  refine { laid with
    held := held
    headed := carries.headed
    bounded := carries.bounded
    filled := ?_
    vacant := ?_ }
  · intro i hi
    have inPane := slot_lt laid.pos head i
    rw [flags _ inPane, payloads _ inPane]
    exact carries.filled i hi
  · intro i hi hround
    rw [flags _ (slot_lt laid.pos head i)]
    exact carries.vacant i hi hround

/-- Filling a slot of another pane changes nothing. -/
theorem Carries.away_fill (carries : l.Carries m head queue) {other : Lane} (laid : other.Laid m)
    (apart : other.pane.Apart l.pane) {k : Nat} (hk : k < other.slots) {words : List UInt64}
    (fits : words.length = other.slotWords - 1) :
    l.Carries (other.fill m k words) head queue := by
  have room := laid.room
  have last := place_lt laid hk (show other.slotWords - 1 < other.slotWords by omega)
  have inPane : other.place k 1 + words.length ≤ other.pane.words := by
    unfold place at last ⊢
    omega
  have held := laid.held.putAll other.pane (other.place k 1) words
  apply carries.congr
  · exact (carries.held.putAll _ _ _).put _ _ _
  · intro i hi
    rw [Lane.fill, Memory.word_put_apart held (place_lt laid hk (by omega)) _ apart hi,
      Memory.word_putAll_apart laid.held inPane apart hi]

/-- Giving back a slot of another pane changes nothing. -/
theorem Carries.away_release (carries : l.Carries m head queue) {other : Lane}
    (laid : other.Laid m) (apart : other.pane.Apart l.pane) {k : Nat} (hk : k < other.slots) :
    l.Carries (other.release m k) head queue := by
  have room := laid.room
  apply carries.congr
  · exact carries.held.put _ _ _
  · intro i hi
    exact Memory.word_put_apart laid.held (place_lt laid hk (by omega)) _ apart hi

end Lane

end Conduit

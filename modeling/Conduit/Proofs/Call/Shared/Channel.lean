/-
# A channel over shared memory between two panes

`Slotted low high m p q toQ toP` says that `p` and `q` are the two ends of one channel over
shared memory: `p` sends on the pane `low` and receives on the pane `high`, `q` the other
way round, and neither end asked for a bell. The operations of an end then change nothing
but words of the two panes and its own cursors, and sending to an empty lane waits for
nobody. Whatever leaves the two panes as they are leaves the channel as it is
(`Slotted.spared`).
-/

import Conduit.Proofs.Slots.Channel
import Conduit.Proofs.Task.Ends
import Conduit.Transport

namespace Conduit

/-- The view shows what it showed. -/
structure View.Same (v : View) (m m' : Memory) : Prop where
  held : m.Holds v → m'.Holds v
  words : ∀ i < v.words, m'.word v i = m.word v i

/-- Both panes of a channel show what they showed. -/
structure Spared (low high : View) (m m' : Memory) : Prop where
  low : low.Same m m'
  high : high.Same m m'

/-- Whatever shows no word of the two panes shows what it showed. -/
def Confined (low high : View) (m m' : Memory) : Prop :=
  ∀ v : View, low.Apart v → high.Apart v → v.Same m m'

variable {low high : View} {m m' m'' : Memory}

theorem View.Same.trans {v : View} (first : v.Same m m') (later : v.Same m' m'') : v.Same m m'' :=
  ⟨fun held => later.held (first.held held),
    fun i hi => (later.words i hi).trans (first.words i hi)⟩

theorem Spared.symm (spared : Spared low high m m') : Spared high low m m' :=
  ⟨spared.high, spared.low⟩

namespace Confined

theorem refl (m : Memory) : Confined low high m m := fun _ _ _ => ⟨id, fun _ _ => rfl⟩

theorem symm (confined : Confined low high m m') : Confined high low m m' :=
  fun v apart apart' => confined v apart' apart

theorem trans (first : Confined low high m m') (later : Confined low high m' m'') :
    Confined low high m m'' :=
  fun v apart apart' => (first v apart apart').trans (later v apart apart')

end Confined

namespace Lane

variable {l : Lane} {k : Nat} {v : View}

theorem same_release (laid : l.Laid m) (hk : k < l.slots) (apart : l.pane.Apart v) :
    v.Same m (l.release m k) where
  held held := held.put _ _ _
  words _ hi := Memory.word_put_apart laid.held
    (place_lt laid hk (Nat.lt_of_lt_of_le Nat.zero_lt_two laid.room)) _ apart hi

theorem same_fill (laid : l.Laid m) (hk : k < l.slots) {words : List UInt64}
    (fits : words.length = l.slotWords - 1) (apart : l.pane.Apart v) :
    v.Same m (l.fill m k words) where
  held held := (held.putAll _ _ _).put _ _ _
  words i hi := by
    have room := laid.room
    have last := place_lt laid hk (show l.slotWords - 1 < l.slotWords by omega)
    have inPane : l.place k 1 + words.length ≤ l.pane.words := by
      unfold place at last ⊢
      omega
    rw [Lane.fill, Memory.word_put_apart (laid.held.putAll _ _ _) (place_lt laid hk (by omega)) _
      apart hi, Memory.word_putAll_apart laid.held inPane apart hi]

end Lane

/-! ### The two ends -/

/-- Nobody is notified by a bell. -/
structure SlotChannel.Polled (c : SlotChannel) : Prop where
  here : c.localBell = none
  there : c.remoteBell = none

/-- Two ends of one polled channel between two panes, and the payloads on their way to
each of them. -/
inductive Slotted (low high : View) (m : Memory) :
    Transport → Transport → List (List UInt64) → List (List UInt64) → Prop
  | intro {a b : SlotChannel} {toB toA : List (List UInt64)}
      (joined : SlotChannel.Joined m a b toB toA) (sends : a.sendPane = low)
      (receives : a.recvPane = high) (polledA : a.Polled) (polledB : b.Polled)
      (small : a.slotBytes ≤ SlotChannel.maxSlotBytes) :
      Slotted low high m (.slots a) (.slots b) toB toA

namespace Slotted

variable {p q : Transport} {toQ toP : List (List UInt64)} {words : List UInt64} {σ : Type}

theorem symm (slotted : Slotted low high m p q toQ toP) : Slotted high low m q p toP toQ := by
  obtain ⟨joined, rfl, rfl, polledA, polledB, small⟩ := slotted
  refine ⟨joined.symm, ?_, joined.recvPane_eq, polledB, polledA, ?_⟩
  · exact congrArg Lane.pane joined.back
  · rw [SlotChannel.slotBytes, ← joined.slotWords_eq]
    exact small

theorem isEndpoint (slotted : Slotted low high m p q toQ toP) : p.isEndpoint = false := by
  cases slotted with
  | intro joined => rfl

theorem width_eq (slotted : Slotted low high m p q toQ toP) : q.width = p.width := by
  cases slotted with
  | intro joined => exact congrArg (· - 1) joined.slotWords_eq.symm

theorem one_le_width (slotted : Slotted low high m p q toQ toP) : 1 ≤ p.width := by
  cases slotted with
  | @intro a b _ _ joined =>
      have room := joined.outgoing_carries.room
      change 2 ≤ a.slotWords at room
      change 1 ≤ a.slotWords - 1
      omega

/-- A string that fits a slot is shorter than a word can tell. -/
theorem width_lt (slotted : Slotted low high m p q toQ toP) : p.width * Word.size < 2 ^ 64 := by
  cases slotted with
  | @intro a b _ _ joined _ _ _ _ small =>
      have less := Nat.mul_le_mul_right Word.size (Nat.sub_le a.slotWords 1)
      refine Nat.lt_of_le_of_lt (Nat.le_trans less small) (by decide)

/-- Whatever leaves the panes alone leaves the channel alone. -/
theorem spared (slotted : Slotted low high m p q toQ toP) (spared : Spared low high m m') :
    Slotted low high m' p q toQ toP := by
  obtain ⟨joined, rfl, rfl, polledA, polledB, small⟩ := slotted
  refine ⟨{ joined with carriesB := ?_, carriesA := ?_ }, rfl, rfl, polledA, polledB, small⟩
  · have same := spared.low
    rw [← joined.recvPane_eq] at same
    exact joined.carriesB.congr (same.held joined.carriesB.held) same.words
  · exact joined.carriesA.congr (spared.high.held joined.carriesA.held) spared.high.words

/-- Both panes lie in memory. -/
theorem held (slotted : Slotted low high m p q toQ toP) : m.Holds low ∧ m.Holds high := by
  obtain ⟨joined, rfl, rfl, -, -, -⟩ := slotted
  exact ⟨joined.outgoing_carries.held, joined.carriesA.held⟩

/-! ### Operations -/

variable {machine : Machine}

theorem canReceive (slotted : Slotted low high machine.memory p q toQ toP) (others : σ)
    (turns : List (Turn σ)) :
    Transport.canReceive ⟨q, ⟨machine, others⟩, turns⟩ =
      .ok (!toQ.isEmpty) ⟨q, ⟨machine, others⟩, turns⟩ := by
  cases slotted with
  | intro joined =>
      simp only [Transport.canReceive, Task.self_bind, Task.machine_bind,
        SlotChannel.canReceive_eq joined]
      rfl

/-- An end without a bell has something to do exactly if a payload is on its way to it. -/
theorem takeEvent (slotted : Slotted low high machine.memory p q toQ toP) (others : σ)
    (turns : List (Turn σ)) :
    Transport.takeEvent ⟨q, ⟨machine, others⟩, turns⟩ =
      .ok (!toQ.isEmpty) ⟨q, ⟨machine, others⟩, turns⟩ := by
  cases slotted with
  | @intro a b _ _ joined _ _ _ polledB =>
      have taken : b.takeNotification machine = .ok (!toQ.isEmpty, machine) := by
        simp only [SlotChannel.takeNotification, polledB.here, SlotChannel.canReceive_eq joined]
        rfl
      simp only [Transport.takeEvent, Task.self_bind]
      exact Task.onMachine_ok taken

/-- Nothing is received where nothing is on its way. -/
theorem receive_nil (slotted : Slotted low high machine.memory p q [] toP) (others : σ)
    (turns : List (Turn σ)) :
    Transport.receive ⟨q, ⟨machine, others⟩, turns⟩ =
      .ok none ⟨q, ⟨machine, others⟩, turns⟩ := by
  cases slotted with
  | intro joined =>
      simp only [Transport.receive, Task.self_bind, Task.machine_bind,
        SlotChannel.receive_nil joined]
      rfl

/-- The first payload on its way is received. -/
theorem receive_cons {rest : List (List UInt64)}
    (slotted : Slotted low high machine.memory p q (words :: rest) toP) :
    ∃ q' memory, Slotted low high memory p q' rest toP ∧
      Confined low high machine.memory memory ∧
      ∀ (σ : Type) (others : σ) (turns : List (Turn σ)),
        Transport.receive ⟨q, ⟨machine, others⟩, turns⟩ =
          .ok (some { words }) ⟨q', ⟨{ machine with memory }, others⟩, turns⟩ := by
  obtain ⟨joined, rfl, rfl, polledA, polledB, small⟩ := slotted
  rename_i a b
  refine ⟨.slots (b.afterReceive machine).1, (b.afterReceive machine).2.memory,
    ⟨joined.afterReceive, rfl, rfl, polledA, ⟨polledB.here, polledB.there⟩, small⟩, ?_, ?_⟩
  · intro v apart _
    rw [← joined.recvPane_eq] at apart
    exact Lane.same_release joined.carriesB.toLaid joined.carriesB.headed apart
  · intro σ others turns
    have whole : words.take b.payloadWords = words :=
      List.take_of_length_le (Nat.le_of_eq (joined.carriesB.length_of_mem List.mem_cons_self))
    simp only [Transport.receive, Task.self_bind, Task.machine_bind,
      SlotChannel.receive_cons joined, whole]
    rfl

/-- A message that fills a slot is sent at once if nothing is before it. -/
theorem send (slotted : Slotted low high machine.memory p q [] toP) {message : Message}
    (fits : message.words.length = p.width) (capless : message.cap = none) :
    ∃ p' memory, Slotted low high memory p' q [message.words] toP ∧
      Confined low high machine.memory memory ∧
      ∀ (σ : Type) (others : σ) (turns : List (Turn σ)) (flags : SendFlags),
        Transport.send message flags ⟨p, ⟨machine, others⟩, turns⟩ =
          .ok () ⟨p', ⟨{ machine with memory }, others⟩, turns⟩ := by
  obtain ⟨joined, rfl, rfl, polledA, polledB, small⟩ := slotted
  rename_i a b
  have whole : SlotChannel.pad a.payloadWords message.words = message.words :=
    SlotChannel.pad_eq_self fits
  have space : ([] : List (List UInt64)).length < a.slots :=
    joined.slots_eq ▸ joined.carriesB.pos
  have bells : (a.afterSend message.words machine).2 =
      { machine with memory := (a.afterSend message.words machine).2.memory } := by
    simp only [SlotChannel.afterSend, SlotChannel.announce, polledA.there]
  have sent := joined.afterSend message.words space
  rw [whole, List.nil_append] at sent
  refine ⟨.slots (a.afterSend message.words machine).1,
    (a.afterSend message.words machine).2.memory,
    ⟨sent, rfl, rfl, ⟨polledA.here, polledA.there⟩, polledB, small⟩, ?_, ?_⟩
  · intro v apart _
    exact Lane.same_fill joined.outgoing_carries.toLaid joined.cursor_lt
      (SlotChannel.length_pad _ _) apart
  · intro σ others turns flags
    have short : ¬ message.words.length > a.payloadWords := Nat.not_lt.mpr (Nat.le_of_eq fits)
    rw [← bells]
    unfold Transport.send
    rw [Task.self_bind]
    simp only [capless, Option.isSome_none, Bool.false_eq_true, if_false, if_neg short]
    apply Task.await_ok
    simp only [Transport.offer, Task.self_bind, Task.machine_bind,
      SlotChannel.send_space joined (Nat.le_of_eq fits) space]
    rfl

end Slotted

/-! ### A new channel -/

/-- The two ends over the halves of one new frame are joined with nothing on the way. -/
theorem slotted_overHalves {memory : Memory} {bytes slotBytes : Nat} {v : View}
    {a b : SlotChannel} (allocated : memory.allocate bytes = .ok (v, m))
    (first : SlotChannel.overHalves v slotBytes true = .ok a)
    (second : SlotChannel.overHalves v slotBytes false = .ok b) :
    Slotted a.sendPane a.recvPane m (.slots a) (.slots b) [] [] := by
  have fresh {half : Bool} {c : SlotChannel}
      (made : SlotChannel.overHalves v slotBytes half = .ok c) :
      c.Polled ∧ c.slotBytes ≤ SlotChannel.maxSlotBytes := by
    unfold SlotChannel.overHalves at made
    cases split : v.splitAt (v.bytes / 2) with
    | none =>
        rw [split] at made
        cases made
    | some halves =>
        rw [split] at made
        have created : ∃ s r, SlotChannel.create slotBytes s r = .ok c := by
          cases half with
          | true => exact ⟨_, _, made⟩
          | false => exact ⟨_, _, made⟩
        obtain ⟨s, r, created⟩ := created
        have small := SlotChannel.slotBytes_le_of_create created
        obtain ⟨slots, -, -, -, -, rfl⟩ := SlotChannel.create_ok created
        exact ⟨⟨rfl, rfl⟩, small⟩
  exact ⟨SlotChannel.joined_overHalves allocated first second, rfl, rfl, (fresh first).1,
    (fresh second).1, (fresh first).2⟩

end Conduit

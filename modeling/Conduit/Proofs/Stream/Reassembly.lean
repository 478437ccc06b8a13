/-
# A receiving end puts together whatever messages come

A peer may send any messages, of any words, at any time between two reads. A receiving end
reads with buffers of any length, and after every read it has handed out a part of what the
messages mean that it took (`interpret`), holds the rest of that, and knows how much of the
last byte string is to come.

* `Inlet.Step` — the end reads into a buffer, or others do something.
* `Inlet.Sound` — what holds after any steps.
* `reassembles` — what was handed out, what the next read hands out, and that no check of a
  read can fail.
-/

import Conduit.Proofs.Slots.Confinement
import Conduit.Proofs.Stream.Checked.Reading
import Conduit.Proofs.Stream.Line

namespace Conduit

/-- An end that was made lies in memory, and nobody can change that by writing. -/
theorem Transport.Receptive.grows {m : Machine} {memory : Memory} {chan : SlotChannel}
    (receptive : Receptive m (.slots chan)) (grows : m.memory.Grows memory) :
    Receptive { m with memory } (.slots chan) := by
  cases receptive with
  | slots fitted => exact .slots (fitted.grows grows)

namespace Stream

/-- A receiving end that reads what there is, the machine, and the messages that it took. -/
structure Inlet where
  machine : Machine
  listener : Listener
  taken : List (List UInt64) := []

namespace Inlet

/-- The width of a message. -/
def width (x : Inlet) : Nat := x.listener.stream.transport.width

/-- The messages that wait. -/
def waiting (x : Inlet) : List (List UInt64) := x.listener.stream.transport.waiting x.machine

/-- A new stream over an endpoint, or over an end of a channel over shared memory, with a
ring of any length that a ring may have. -/
inductive New : Inlet → Prop where
  | endpoint {m : Machine} {ep : Endpoint} {length : Nat} {s : Stream}
      (receptive : (Transport.endpoint ep).Receptive m)
      (created : Stream.create (.endpoint ep) length = .ok (.ok s)) :
      New { machine := m, listener := { stream := s } }
  | slots {m : Machine} {chan : SlotChannel} {length : Nat} {s : Stream}
      (made : SlotChannel.Made m.memory chan)
      (created : Stream.create (.slots chan) length = .ok (.ok s)) :
      New { machine := m, listener := { stream := s } }

/-- The end takes what there is, up to the length of a buffer, and the messages that are gone
were taken; or others do anything that leaves the end able to receive. -/
inductive Step : Inlet → Inlet → Prop where
  | read {σ : Type} {m m' : Machine} {q q' : Listener} {others others' : σ}
      {turns turns' : List (Turn σ)} {taken more : List (List UInt64)} {length : Nat}
      (ended : Listener.perform (.receiveAvailable length) ⟨q, ⟨m, others⟩, turns⟩ =
        ⟨q', ⟨m', others'⟩, turns'⟩)
      (gone : q.stream.transport.waiting m = more ++ q'.stream.transport.waiting m') :
      Step ⟨m, q, taken⟩ ⟨m', q', taken ++ more⟩
  | others {m m' : Machine} {q : Listener} {taken : List (List UInt64)}
      (receptive : q.stream.transport.Receptive m') : Step ⟨m, q, taken⟩ ⟨m', q, taken⟩

/-- What holds after any steps: what the messages mean that were taken was handed out or is
held. -/
structure Sound (width : Nat) (x : Inlet) : Prop where
  receptive : x.listener.stream.transport.Receptive x.machine
  sized : x.listener.stream.Sized
  wide : x.width = width
  full : ∀ words ∈ x.taken, words.length = width
  held : ({} : Intake).all x.taken = ⟨x.listener.touched ++ x.listener.stream.backlog,
    x.listener.stream.bytesLeft, x.listener.stream.closed⟩

/-! ### A new end -/

/-- A new ring is as long as was asked for. -/
theorem sized_create {t : Transport} {length : Nat} {s : Stream}
    (created : Stream.create t length = .ok (.ok s)) : s.ring.Sized := by
  have valid := (create_ok created).2.1
  refine ⟨valid, ?_⟩
  unfold Stream.create Ring.create at created
  by_cases short : length < 2
  · rw [if_pos short] at created
    cases created
  · by_cases addressed : length < Ring.lengthLimit
    · rw [if_neg short, if_pos addressed] at created
      cases created
      rw [Array.size_replicate]
      exact addressed
    · rw [if_neg short, if_neg addressed] at created
      cases created

theorem sound_create {m : Machine} {t : Transport} {length : Nat} {s : Stream}
    (receptive : t.Receptive m) (narrow : t.width ≤ maxWords)
    (created : Stream.create t length = .ok (.ok s)) :
    Sound t.width { machine := m, listener := { stream := s } } := by
  obtain ⟨across, -, empty, left, isOpen⟩ := create_ok created
  refine ⟨across.symm ▸ receptive, ⟨sized_create created, across.symm ▸ narrow⟩,
    congrArg Transport.width across, fun _ mem => absurd mem List.not_mem_nil, ?_⟩
  simp only [empty, left, isOpen, Listener.touched, Intake.all]
  rfl

theorem New.sound {x : Inlet} (new : New x) : Sound x.width x := by
  cases new with
  | endpoint receptive created =>
      have sound := sound_create receptive (by decide : Letter.width ≤ maxWords) created
      exact sound.wide.symm ▸ sound
  | @slots m chan length s made created =>
      obtain ⟨slotBytes, sendPane, recvPane, -, -, built⟩ := made.overPanes
      have small : chan.slotWords * Word.size ≤ SlotChannel.maxSlotBytes :=
        SlotChannel.slotBytes_le_of_create built
      have narrow : (Transport.slots chan).width ≤ maxWords := by
        refine Nat.le_trans (Nat.sub_le _ 1) ?_
        exact (Nat.le_div_iff_mul_le (by decide)).mpr small
      have sound := sound_create (.slots made.fitted) narrow created
      exact sound.wide.symm ▸ sound

/-! ### One step -/

variable {x x' : Inlet} {width : Nat}

/-- A read never waits and never fails. It fills the buffer from what is held and from the
messages that wait. -/
theorem Sound.perform (sound : x.Sound width) (length : Nat) :
    ∃ r m' took, Fills x.machine x.listener.stream length m' r took ∧ r.Spent length m' ∧
      ∀ (σ : Type) (others : σ) (turns : List (Turn σ)),
        Listener.perform (.receiveAvailable length) ⟨x.listener, ⟨x.machine, others⟩, turns⟩ =
          ⟨⟨r.stream, x.listener.receipts ++
            [⟨.receiveAvailable length, r.filled, .ok r.filled.length⟩]⟩, ⟨m', others⟩, turns⟩ := by
  obtain ⟨r, m', took, fills, spent, filled⟩ :=
    Fills.fill sound.receptive sound.sized.ring.toValid length
  refine ⟨r, m', took, fills, spent, fun σ others turns => ?_⟩
  have ran : Reader.receiveAvailable length
      ⟨{ stream := x.listener.stream }, ⟨x.machine, others⟩, turns⟩ =
        .ok r.filled.length ⟨r, ⟨m', others⟩, turns⟩ := by
    unfold Reader.receiveAvailable
    exact Task.bind_ok (filled σ others turns)
  simp only [Listener.perform, Op.listen, Task.finish, ran]

/-- After a read the messages that it took are accounted for. -/
theorem Sound.after_read (sound : x.Sound width) {length : Nat} {r : Reader} {m' : Machine}
    {took : List (List UInt64)} (fills : Fills x.machine x.listener.stream length m' r took) :
    Sound width ⟨m', ⟨r.stream, x.listener.receipts ++
      [⟨.receiveAvailable length, r.filled, .ok r.filled.length⟩]⟩, x.taken ++ took⟩ := by
  refine ⟨fills.receptive, fills.sized sound.sized, fills.width.trans sound.wide, ?_, ?_⟩
  · intro words mem
    rcases List.mem_append.mp mem with old | new
    · exact sound.full words old
    · rw [← sound.wide]
      exact sound.receptive.full words (fills.waits ▸ List.mem_append_left _ new)
  · have held : ({} : Intake).all x.taken = { x.listener.stream.intake with
        bytes := x.listener.touched ++ x.listener.stream.intake.bytes } := sound.held
    rw [Intake.all_append, held, Intake.all_front, fills.holds]
    simp only [Listener.touched, List.flatMap_append, List.flatMap_singleton, List.append_assoc]

theorem Sound.step (sound : x.Sound width) (step : Step x x') : x'.Sound width := by
  cases step with
  | @read σ m m' q q' others others' turns turns' taken more length ended gone =>
      obtain ⟨r, m'', took, fills, -, performed⟩ := sound.perform length
      rw [performed σ others turns] at ended
      cases ended
      have same : more = took := List.append_cancel_right (gone.symm.trans fills.waits)
      rw [same]
      exact sound.after_read fills
  | others receptive => exact ⟨receptive, sound.sized, sound.wide, sound.full, sound.held⟩

theorem Sound.runs (sound : x.Sound width) (runs : Relation.ReflTransGen Step x x') :
    x'.Sound width := by
  induction runs with
  | refl => exact sound
  | tail _ step ih => exact ih.step step

/-! ### All reads -/

/-- What a receiving end has handed out, holds and will hand out. -/
structure Reassembles (width : Nat) (x : Inlet) : Prop where
  /-- It took whole messages. -/
  full : ∀ words ∈ x.taken, words.length = width
  /-- What they mean was handed out or is held, and as many bytes are to come as they lack. -/
  held : interpret width x.taken = ⟨x.listener.touched ++ x.listener.stream.backlog,
    x.listener.stream.bytesLeft.toNat, x.listener.stream.closed⟩
  /-- Whatever messages follow, what was handed out is the front of what all of them mean; it
  is all of that if nothing is held and the end was announced or nothing follows. -/
  delivered : ∀ later : List (List UInt64), (∀ words ∈ later, words.length = width) →
    x.listener.touched <+: (interpret width (x.taken ++ later)).bytes ∧
      (x.listener.stream.backlog = [] → x.listener.stream.closed = true ∨ later = [] →
        x.listener.touched = (interpret width (x.taken ++ later)).bytes)
  /-- A read returns, and hands out what comes next of all that the messages mean that were
  taken or wait, as far as the buffer goes. -/
  reads : ∀ (length : Nat) (σ : Type) (others : σ) (turns : List (Turn σ)),
    ∃ filled x', Step x x' ∧
      Listener.perform (.receiveAvailable length) ⟨x.listener, ⟨x.machine, others⟩, turns⟩ =
        ⟨x'.listener, ⟨x'.machine, others⟩, turns⟩ ∧
      x'.listener.receipts = x.listener.receipts ++
        [⟨.receiveAvailable length, filled, .ok filled.length⟩] ∧
      x'.taken ++ x'.waiting = x.taken ++ x.waiting ∧
      filled = ((interpret width (x.taken ++ x.waiting)).bytes.drop
        x.listener.touched.length).take length
  /-- No check of a read fails. -/
  checked : ∀ length < Checked.limit, ∀ (σ : Type) (others : σ) (turns : List (Turn σ)),
    Reader.receiveAvailableChecked length
        ⟨{ stream := x.listener.stream }, ⟨x.machine, others⟩, turns⟩ =
      Reader.receiveAvailable length
        ⟨{ stream := x.listener.stream }, ⟨x.machine, others⟩, turns⟩

/-- What further messages add is what they add to what is held. -/
theorem Sound.bytes_interpret (sound : x.Sound width) {later : List (List UInt64)}
    (full : ∀ words ∈ later, words.length = width) :
    (interpret width (x.taken ++ later)).bytes =
      x.listener.touched ++ (x.listener.stream.intake.all later).bytes := by
  have wide : 1 ≤ width := sound.wide ▸ sound.receptive.one_le_width
  have whole : ∀ words ∈ x.taken ++ later, words.length = width := fun words mem =>
    (List.mem_append.mp mem).elim (sound.full words) (full words)
  have held : ({} : Intake).all x.taken = { x.listener.stream.intake with
      bytes := x.listener.touched ++ x.listener.stream.intake.bytes } := sound.held
  rw [← intake_interpret wide whole, Intake.all_append, held, Intake.all_front]
  rfl

theorem Sound.accounts (sound : x.Sound width) : x.Reassembles width where
  full := sound.full
  held := by
    have wide : 1 ≤ width := sound.wide ▸ sound.receptive.one_le_width
    rw [← intake_interpret wide sound.full, sound.held]
    rfl
  delivered := by
    intro later full
    rw [sound.bytes_interpret full]
    refine ⟨List.prefix_append _ _, fun empty ended => ?_⟩
    have nothing : (x.listener.stream.intake.all later).bytes = [] := by
      rcases ended with closed | rfl
      · rw [Intake.all_ended closed]
        exact empty
      · exact empty
    rw [nothing, List.append_nil]
  reads := by
    intro length σ others turns
    obtain ⟨r, m', took, fills, spent, performed⟩ := sound.perform length
    have waiting : x.waiting = took ++ r.stream.transport.waiting m' := fills.waits
    refine ⟨r.filled, ⟨m', _, x.taken ++ took⟩, .read (performed σ others turns) waiting,
      performed σ others turns, rfl, ?_, ?_⟩
    · rw [waiting, List.append_assoc]
      rfl
    · have full : ∀ words ∈ x.waiting, words.length = width := fun words mem =>
        (sound.receptive.full words mem).trans sound.wide
      rw [sound.bytes_interpret full, List.drop_left]
      exact fills.filled_eq spent
  checked := fun length short σ others turns =>
    Reader.receiveAvailableChecked_eq sound.receptive sound.sized short others turns

/-- Whatever messages come, of any words and at any time, and however they are read: what was
handed out is the front of what they mean, the rest of what was taken is held, and as many
bytes are expected as the last byte string lacks; the next read hands out what comes next, up
to the length of its buffer; and nothing that a read computes is out of range. -/
theorem reassembles {start final : Inlet} (new : New start)
    (runs : Relation.ReflTransGen Step start final) : final.Reassembles start.width :=
  (new.sound.runs runs).accounts

/-- A new end over the lower half of a zeroed frame, with the shortest ring. -/
def fresh : Inlet where
  machine := { Machine.create 16 with memory := SlotChannel.blank }
  listener := { stream :=
    { transport := .slots SlotChannel.lower, ring := { storage := #[0, 0] } } }

theorem new_fresh : New fresh := by
  have held : SlotChannel.blank.Holds ⟨0, 0, 8⟩ := by
    unfold Memory.Holds
    decide
  have made : SlotChannel.Made SlotChannel.blank SlotChannel.lower :=
    .halves held .whole (show SlotChannel.overHalves ⟨0, 0, 8⟩ 16 true = _ by decide)
  exact .slots made (show Stream.create _ 2 = _ by rfl)

/-- Its peer announced more bytes than there can be, and sent eight. -/
def flooded : Inlet := { fresh with machine := { fresh.machine with
  memory := (((SlotChannel.blank.put ⟨0, 0, 8⟩ 4 1).put ⟨0, 0, 8⟩ 5 0xfffffffffffffffe).put
    ⟨0, 0, 8⟩ 6 1).put ⟨0, 0, 8⟩ 7 0x0807060504030201 } }

/-- Three of the bytes are read. -/
theorem reassembles_flooded : ∃ x : Inlet, New fresh ∧ Relation.ReflTransGen Step fresh x ∧
    x.listener.touched = [1, 2, 3] ∧
    interpret 1 (x.taken ++ x.waiting) = ⟨[1, 2, 3, 4, 5, 6, 7, 8], 0xfffffffffffffff6, false⟩ ∧
    x.Reassembles 1 := by
  have grows : SlotChannel.blank.Grows flooded.machine.memory :=
    (((Memory.grows_put _ _ _ _).trans (Memory.grows_put _ _ _ _)).trans
      (Memory.grows_put _ _ _ _)).trans (Memory.grows_put _ _ _ _)
  have floods : Relation.ReflTransGen Step fresh flooded :=
    .single (.others (new_fresh.sound.receptive.grows grows))
  have waiting : flooded.waiting = [[0xfffffffffffffffe], [0x0807060504030201]] := by decide
  have means : interpret 1 [[0xfffffffffffffffe], [0x0807060504030201]] =
      ⟨[1, 2, 3, 4, 5, 6, 7, 8], 0xfffffffffffffff6, false⟩ := by
    rw [← intake_interpret (by decide) (by decide)]
    decide
  obtain ⟨filled, x, reads, -, receipts, same, filled_eq⟩ :=
    (reassembles new_fresh floods).reads 3 Unit () []
  rw [waiting] at same filled_eq
  have whole : interpret 1 (x.taken ++ x.waiting) = _ := (congrArg (interpret 1) same).trans means
  refine ⟨x, new_fresh, floods.tail reads, ?_, whole, reassembles new_fresh (floods.tail reads)⟩
  have filled_eq : filled = [1, 2, 3] := by
    rw [filled_eq]
    exact congrArg (fun meaning : Meaning => (meaning.bytes.drop 0).take 3) means
  rw [Listener.touched, receipts, filled_eq]
  rfl

end Inlet

end Stream

end Conduit

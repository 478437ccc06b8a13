/-
# A read takes all there is, and no more than asked

What there is to be read is what a stream holds and, unless it is closed, the bytes of the
messages that wait, up to the announcement of the end (`Stream.available`). A read of what
there is fills its buffer from the front of that and leaves the rest to be read next. It
never waits for more, and it takes a message only while the buffer could not be filled with
what had been received, so that nothing behind a full buffer is touched, whatever it says.

* `available_eq` — what there is, as a reader of messages counts it.
* `Stream.Fills.readsOut` — what filling a buffer comes to.
* `receiveAvailable_takes` — the result.
-/

import Conduit.Proofs.Stream.Reassembly

namespace Conduit

namespace Stream

/-! ### What there is -/

/-- The bytes of messages up to one that announces the end, when so many bytes are to come. -/
def beforeClose (left : UInt64) : List (List UInt64) → List UInt8
  | [] => []
  | words :: rest =>
      if isClose left words then []
      else (scan left words).1 ++ beforeClose (scan left words).2 rest

/-- What there is to be read. -/
def available (m : Machine) (s : Stream) : List UInt8 :=
  s.backlog ++ if s.closed then [] else beforeClose s.bytesLeft (s.transport.waiting m)

/-- Message by message the same bytes are taken in, and the same end is noticed. -/
theorem all_eq_beforeClose (left : UInt64) (messages : List (List UInt64)) :
    ((⟨[], left, false⟩ : Intake).all messages).bytes = beforeClose left messages ∧
      ((⟨[], left, false⟩ : Intake).all messages).ended = closes left messages := by
  induction messages generalizing left with
  | nil => exact ⟨rfl, rfl⟩
  | cons words rest ih =>
      cases close : isClose left words with
      | true =>
          have ended : (⟨[], left, false⟩ : Intake).all (words :: rest) = ⟨[], left, true⟩ := by
            rw [Intake.all, List.foldl_cons, Intake.next_close rfl close]
            exact Intake.all_ended rfl rest
          constructor
          · simp [ended, beforeClose, close]
          · simp [ended, closes, close]
      | false =>
          have step : (⟨[], left, false⟩ : Intake).all (words :: rest) =
              (⟨(scan left words).1, (scan left words).2, false⟩ : Intake).all rest := by
            rw [Intake.all, List.foldl_cons, Intake.next_scan rfl close]
            rfl
          obtain ⟨bytes, ended⟩ := ih (scan left words).2
          rw [step, Intake.all_behind]
          constructor
          · simp [bytes, beforeClose, close]
          · simp [ended, closes, close]

variable {m : Machine} {s : Stream}

/-- What an open stream holds after further messages. -/
theorem intake_all (isOpen : s.closed = false) (messages : List (List UInt64)) :
    (s.intake.all messages).bytes = s.backlog ++ beforeClose s.bytesLeft messages ∧
      (s.intake.all messages).ended = closes s.bytesLeft messages := by
  obtain ⟨bytes, ended⟩ := all_eq_beforeClose s.bytesLeft messages
  rw [intake, isOpen, Intake.all_behind]
  constructor
  · simp [bytes]
  · exact ended

theorem available_eq (m : Machine) (s : Stream) :
    s.available m = (s.intake.all (s.transport.waiting m)).bytes := by
  cases closed : s.closed with
  | true =>
      have ended : s.intake.ended = true := closed
      rw [Intake.all_ended ended, available, closed, if_pos rfl, List.append_nil]
      rfl
  | false =>
      rw [(intake_all closed _).1, available, closed]
      rfl

/-- Whether the end was announced, counting further messages. -/
theorem ended_all (s : Stream) (messages : List (List UInt64)) :
    (s.intake.all messages).ended = (s.closed || closes s.bytesLeft messages) := by
  cases closed : s.closed with
  | true =>
      have ended : s.intake.ended = true := closed
      rw [Intake.all_ended ended, Bool.true_or]
      exact closed
  | false => rw [(intake_all closed messages).2, Bool.false_or]

/-! ### What a read comes to -/

/-- A read out of a stream into a buffer of this length: `took` is the messages that it took
from the transport. -/
structure ReadsOut (length : Nat) (m : Machine) (s : Stream) (m' : Machine) (r : Reader)
    (took : List (List UInt64)) : Prop where
  /-- The buffer has the front of what there was, as far as it goes. -/
  filled : r.filled = (s.available m).take length
  /-- The rest of what there was is there. -/
  rest : r.stream.available m' = (s.available m).drop length
  /-- The messages were taken in the order in which they waited. -/
  gone : s.transport.waiting m = took ++ r.stream.transport.waiting m'
  /-- What they held is in the buffer or is held by the stream. -/
  held : r.filled ++ r.stream.backlog = s.backlog ++ beforeClose s.bytesLeft took
  /-- The stream is closed if it was, or if one of them announced the end. -/
  closed : r.stream.closed = (s.closed || closes s.bytesLeft took)
  /-- Each of them was needed: before it the stream was open, and all that had been received
  did not fill the buffer. -/
  needed : ∀ before words later, took = before ++ words :: later →
    s.closed = false ∧ closes s.bytesLeft before = false ∧
      s.buffered + (beforeClose s.bytesLeft before).length < length
  /-- If the buffer is not full, nothing is left to fill it. -/
  spent : r.filled.length < length → r.stream.buffered = 0 ∧
    (r.stream.closed = true ∨ r.stream.transport.waiting m' = [])
  /-- The stream can be read again. -/
  receptive : r.stream.transport.Receptive m'
  valid : r.stream.ring.Valid

variable {m' : Machine} {r : Reader} {took : List (List UInt64)} {length : Nat}

/-- Each message was needed, as the last of those up to it was: none of them announced the
end, and they hold no more bytes than all that came before the last one. -/
theorem Fills.each_needed (fills : Fills m s length m' r took) {before later : List (List UInt64)}
    {words : List UInt64} (split : took = before ++ words :: later) :
    (s.intake.all before).ended = false ∧ (s.intake.all before).bytes.length < length := by
  have last := List.dropLast_concat_getLast (List.cons_ne_nil words later)
  obtain ⟨less, isOpen⟩ := fills.needed (before ++ (words :: later).dropLast) _
    (by rw [split, List.append_assoc, last])
  rw [Intake.all_append] at less isOpen
  constructor
  · by_contra ended
    rw [Intake.all_ended (by simpa using ended)] at isOpen
    exact ended isOpen
  · exact Nat.lt_of_le_of_lt (Intake.bytes_prefix _ _).length_le less

theorem Fills.readsOut (fills : Fills m s length m' r took) (spent : r.Spent length m') :
    ReadsOut length m s m' r took where
  filled := by
    rw [available_eq]
    exact fills.filled_eq spent
  rest := by
    have whole : s.available m = r.filled ++ r.stream.available m' := by
      rw [available_eq, available_eq, fills.waits, Intake.all_append, fills.holds]
      exact congrArg Intake.bytes (Intake.all_front r.filled r.stream.intake _)
    rcases Nat.eq_or_lt_of_le fills.within with full | less
    · rw [whole, ← full, List.drop_left]
    · obtain ⟨empty, reason⟩ := spent.spent less
      have nothing : r.stream.available m' = [] := by
        rcases reason with closed | none
        · simp [available, empty, closed]
        · simp [available, empty, none, beforeClose]
      rw [whole, nothing, List.append_nil, List.drop_of_length_le (Nat.le_of_lt less)]
  gone := fills.waits
  held := by
    have bytes : (s.intake.all took).bytes = r.filled ++ r.stream.backlog :=
      congrArg Intake.bytes fills.holds
    rw [← bytes]
    cases took with
    | nil => exact (List.append_nil _).symm
    | cons words later =>
        have split : words :: later = [] ++ words :: later := rfl
        have isOpen : s.closed = false := (fills.each_needed split).1
        exact (intake_all isOpen _).1
  closed := by
    rw [← ended_all, fills.holds]
  needed := by
    intro before words later split
    obtain ⟨isOpen, less⟩ := fills.each_needed split
    rw [ended_all, Bool.or_eq_false_iff] at isOpen
    rw [(intake_all isOpen.1 before).1, List.length_append, length_backlog] at less
    exact ⟨isOpen.1, isOpen.2, less⟩
  spent := by
    intro less
    obtain ⟨empty, reason⟩ := spent.spent less
    exact ⟨by rw [← length_backlog, empty, List.length_nil], reason⟩
  receptive := fills.receptive
  valid := fills.valid

/-! ### All reads -/

/-- A read of what there is returns the lesser of what there is and what is asked for, without
waiting: the others and their turns are as before. The buffer has just that many bytes from the
front of what there was, and the bytes behind them are untouched. -/
theorem receiveAvailable_takes
    (receptive : s.transport.Receptive m) (valid : s.ring.Valid) (length : Nat) :
    ∃ (m' : Machine) (r : Reader) (took : List (List UInt64)), ReadsOut length m s m' r took ∧
      (∀ (σ : Type) (others : σ) (turns : List (Turn σ)),
        Reader.receiveAvailable length ⟨{ stream := s }, ⟨m, others⟩, turns⟩ =
          .ok (min length (s.available m).length) ⟨r, ⟨m', others⟩, turns⟩) ∧
      ∀ untouched : UInt8, r.buffer length untouched = (s.available m).take length ++
        List.replicate (length - (s.available m).length) untouched := by
  obtain ⟨r, m', took, fills, spent, filled⟩ := Fills.fill receptive valid length
  have out := fills.readsOut spent
  have count : r.filled.length = min length (s.available m).length := by
    rw [out.filled, List.length_take]
  refine ⟨m', r, took, out, ?_, ?_⟩
  · intro σ others turns
    unfold Reader.receiveAvailable
    rw [Task.bind_ok (filled σ others turns), ← count]
    rfl
  · intro untouched
    have left : length - r.filled.length = length - (s.available m).length := by omega
    rw [Reader.buffer, left, out.filled]

/-- The last eight bytes of a byte string wait, and behind them the announcement of the end. -/
def Inlet.ending : Inlet where
  machine := { Inlet.fresh.machine with
    memory := (((SlotChannel.blank.put ⟨0, 0, 8⟩ 4 1).put ⟨0, 0, 8⟩ 5 0x0807060504030201).put
      ⟨0, 0, 8⟩ 6 1).put ⟨0, 0, 8⟩ 7 closeMark }
  listener := { stream := { Inlet.fresh.listener.stream with bytesLeft := 8 } }

/-- A buffer for these bytes takes them through a ring that holds one byte at a time, and
leaves the announcement where it is. -/
theorem receiveAvailable_before_end :
    Inlet.ending.listener.stream.transport.Receptive Inlet.ending.machine ∧
    Inlet.ending.listener.stream.ring.Valid ∧
    Inlet.ending.waiting = [[0x0807060504030201], [closeMark]] ∧
    ∃ (m' : Machine) (r : Reader),
      Reader.receiveAvailable 8 ⟨{ stream := Inlet.ending.listener.stream },
        ⟨Inlet.ending.machine, ()⟩, []⟩ = .ok 8 ⟨r, ⟨m', ()⟩, []⟩ ∧
      r.filled = [1, 2, 3, 4, 5, 6, 7, 8] ∧ r.stream.closed = false ∧
      r.stream.transport.waiting m' = [[closeMark]] := by
  have grows : SlotChannel.blank.Grows Inlet.ending.machine.memory :=
    (((Memory.grows_put _ _ _ _).trans (Memory.grows_put _ _ _ _)).trans
      (Memory.grows_put _ _ _ _)).trans (Memory.grows_put _ _ _ _)
  have receptive : Inlet.ending.listener.stream.transport.Receptive Inlet.ending.machine :=
    Inlet.new_fresh.sound.receptive.grows grows
  have valid : Inlet.ending.listener.stream.ring.Valid :=
    Inlet.new_fresh.sound.sized.ring.toValid
  obtain ⟨m', r, took, out, ran, -⟩ := receiveAvailable_takes receptive valid 8
  have there : Inlet.ending.listener.stream.available Inlet.ending.machine =
      [1, 2, 3, 4, 5, 6, 7, 8] := by decide
  have filled : r.filled = [1, 2, 3, 4, 5, 6, 7, 8] := by
    rw [out.filled, there]
    rfl
  have waiting : Inlet.ending.waiting = [[0x0807060504030201], [closeMark]] := by decide
  have waits : [[0x0807060504030201], [closeMark]] = took ++ r.stream.transport.waiting m' :=
    waiting.symm.trans out.gone
  rw [there] at ran
  refine ⟨receptive, valid, waiting, m', r, ran Unit () [], filled, ?_⟩
  match took, waits, out.held, out.closed, out.needed with
  | [], _, held, _, _ =>
      rw [filled] at held
      cases held
  | [words], waits, _, closed, _ =>
      simp only [List.singleton_append, List.cons.injEq] at waits
      obtain ⟨rfl, waits⟩ := waits
      exact ⟨closed, waits.symm⟩
  | first :: second :: later, waits, _, _, needed =>
      simp only [List.cons_append, List.cons.injEq] at waits
      obtain ⟨rfl, -⟩ := waits
      have less := (needed [_] second later rfl).2.2
      exact absurd less (by decide)

end Stream

end Conduit

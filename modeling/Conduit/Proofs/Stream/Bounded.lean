/-
# What a receiving end holds is bounded

A peer may send any messages, at any time, and the kernel may refuse anything. Still a
receiving end never holds more than the bytes of one message besides what it hands out, as it
takes a message only when it holds nothing: each of its operations hands out first, and goes on
only with an empty backlog.

* `Reader.Step` — what an operation is made of. A message is taken where nothing is held.
* `Reader.Course.bounded`, `Reader.Course.ordered` — what one step keeps, and any number of them.
* `Op.reached` — every operation is made of these steps, however it ends.
* `buffering_bounded` — the result, for any history of operations.
-/

import Conduit.Proofs.Stream.Reassembly
import Conduit.Proofs.Stream.Width
import Mathlib.Data.List.Forall2

namespace Conduit

variable {σ α : Type}

/-! ### What an operation is made of -/

namespace Reader

/-- The transport of a reader. -/
def carrier (now : Moment Reader σ) : Moment Transport σ :=
  ⟨now.self.stream.transport, now.scene, now.turns⟩

/-- The reader after its transport was used. -/
def carrying (now : Moment Reader σ) (inner : Moment Transport σ) : Moment Reader σ :=
  ⟨{ now.self with stream := { now.self.stream with transport := inner.self } }, inner.scene,
    inner.turns⟩

/-- The reader after these words were received. -/
def absorbing (now : Moment Reader σ) (inner : Moment Transport σ) (words : List UInt64) :
    Moment Reader σ :=
  ⟨{ now.self with stream := ((carrying now inner).self.stream.absorb words).2 }, inner.scene,
    inner.turns⟩

/-- One step of an operation, with the message that it took. The transport is asked for a
message only where nothing is held. -/
inductive Step : Moment Reader σ → List (List UInt64) → Moment Reader σ → Prop
  /-- The others act once. -/
  | pass (now : Moment Reader σ) : Step now [] (Task.pause.finish now).2
  /-- Bytes that are held go to the buffer. -/
  | drain (now : Moment Reader σ) (upTo : Nat) :
      Step now [] { now with self := now.self.drain upTo }
  /-- A message is taken and absorbed. -/
  | take {now : Moment Reader σ} {inner : Moment Transport σ} {message : Message}
      (empty : now.self.stream.buffered = 0)
      (received : Transport.receive.finish (carrier now) = (.ok (some message), inner)) :
      Step now [message.words] (absorbing now inner message.words)
  /-- No message can be had. -/
  | miss {now : Moment Reader σ} {inner : Moment Transport σ}
      {outcome : Except Stop (Option Message)} (empty : now.self.stream.buffered = 0)
      (received : Transport.receive.finish (carrier now) = (outcome, inner))
      (vain : ∀ message, outcome ≠ .ok (some message)) : Step now [] (carrying now inner)
  /-- A message is sent, or refused. -/
  | send (now : Moment Reader σ) (message : Message) (flags : SendFlags) :
      Step now [] (carrying now ((Transport.send message flags).finish (carrier now)).2)
  /-- The stream is closed. -/
  | hangUp (now : Moment Reader σ) :
      Step now [] { now with self.stream.closed := true }

/-- Any number of steps, with the messages that they took. -/
inductive Course (start : Moment Reader σ) : List (List UInt64) → Moment Reader σ → Prop
  | start : Course start [] start
  | next {took more : List (List UInt64)} {now now' : Moment Reader σ}
      (course : Course start took now) (step : Step now more now') :
      Course start (took ++ more) now'

end Reader

namespace Stream

/-- A stream holds no more than a message does, and parks no more than does not fit its ring. -/
structure Bounded (width capacity : Nat) (s : Stream) : Prop where
  valid : s.ring.Valid
  wide : s.transport.width = width
  room : s.ring.capacity = capacity
  held : s.buffered ≤ width * Word.size
  parked : s.parked ≠ [] → capacity < width * Word.size

variable {s : Stream} {width capacity : Nat} {words : List UInt64}

/-! ### What one step keeps -/

theorem capacity_eq {s s' : Stream} (same : s'.ring.storage.size = s.ring.storage.size) :
    s'.ring.capacity = s.ring.capacity := by
  rw [Ring.capacity, Ring.capacity, same]

/-- Bytes that are handed out leave no more parked than before. -/
theorem parked_drainWithin (bound limit : Nat) (s : Stream) :
    (drainWithin bound limit s).2.parked <:+ s.parked := by
  induction bound generalizing s limit with
  | zero => exact List.suffix_rfl
  | succ bound ih =>
      simp only [drainWithin]
      split
      · exact List.suffix_rfl
      · exact (ih _ _).trans (List.drop_suffix _ _)

theorem Bounded.drain (bounded : Bounded width capacity s) (limit : Nat) :
    Bounded width capacity (s.drain limit).2 where
  valid := valid_drainWithin bounded.valid _ _
  wide := by
    obtain ⟨-, transport, -⟩ := drainWithin_keeps (limit + 1) limit s
    exact (congrArg Transport.width transport).trans bounded.wide
  room := (capacity_eq (storage_drainWithin _ _ s)).trans bounded.room
  held := by
    rw [← length_backlog, (drain_eq bounded.valid limit).2, List.length_drop, length_backlog]
    exact Nat.le_trans (Nat.sub_le _ _) bounded.held
  parked := by
    intro some
    apply bounded.parked
    rintro none
    have left := parked_drainWithin (limit + 1) limit s
    rw [none] at left
    exact some (List.suffix_nil.mp left)

/-- What a message adds fits a message. -/
theorem length_scan (left : UInt64) (words : List UInt64) :
    (scan left words).1.length ≤ words.length * Word.size := by
  have portion_le (left : UInt64) (payload : List UInt64) :
      (portion left payload).1.length ≤ payload.length * Word.size := by
    rw [portion, List.length_take]
    omega
  unfold scan
  split
  · split
    · exact Nat.zero_le _
    · refine (portion_le _ words.tail).trans (Nat.mul_le_mul_right _ ?_)
      rw [List.length_tail]
      exact Nat.sub_le _ _
  · exact portion_le left words

/-- Bytes are parked only where they do not fit an empty ring. -/
theorem parked_stash (empty : s.buffered = 0) (bytes : List UInt8)
    (some : (s.stash bytes).parked ≠ []) : s.ring.capacity < bytes.length := by
  have none : s.ring.size = 0 ∧ s.parked.length = 0 := Nat.add_eq_zero_iff.mp empty
  have unparked : s.parked.isEmpty = true :=
    List.isEmpty_iff.mpr (List.length_eq_zero_iff.mp none.2)
  rw [stash, if_pos unparked] at some
  have more : (s.ring.write bytes).1 < bytes.length := by
    by_contra all
    exact some (List.drop_of_length_le (Nat.not_lt.mp all))
  have room : (s.ring.write bytes).1 = min bytes.length s.ring.capacity := by
    rw [Ring.write, Ring.free, none.1, Nat.sub_zero]
  omega

/-- One message fits where nothing is held. -/
theorem Bounded.absorb (bounded : Bounded width capacity s) (empty : s.buffered = 0)
    (fits : words.length ≤ width) : Bounded width capacity (s.absorb words).2 where
  valid := valid_absorb bounded.valid words
  wide := (congrArg Transport.width (transport_absorb words)).trans bounded.wide
  room := (capacity_eq (storage_absorb s words)).trans bounded.room
  held := by
    rw [← length_backlog, backlog_absorb bounded.valid, List.length_append, length_backlog, empty,
      Nat.zero_add]
    exact (length_scan _ words).trans (Nat.mul_le_mul_right _ fits)
  parked := by
    intro some
    have bytes := (length_scan s.bytesLeft words).trans (Nat.mul_le_mul_right _ fits)
    rcases s.absorb_cases words with ⟨after, -⟩ | ⟨left, payload, after, scanned⟩
    · rw [after] at some
      exact bounded.parked some
    · rw [after] at some
      rw [scanned] at bytes
      rw [← bounded.room]
      have parked := parked_stash (s := { s with bytesLeft := (portion left payload).2 }) empty
        (portion left payload).1 some
      exact Nat.lt_of_lt_of_le parked bytes

/-- The bytes of the messages that were taken are those that were handed out, and behind them
those in the ring, and behind those the parked ones. -/
def Ordered (took : List (List UInt64)) (got : List UInt8) (s : Stream) : Prop :=
  decode 0 took = (got ++ s.ring.toList ++ s.parked, s.bytesLeft)

variable {took : List (List UInt64)} {got : List UInt8}

theorem ordered_iff : Ordered took got s ↔ decode 0 took = (got ++ s.backlog, s.bytesLeft) := by
  rw [Ordered, backlog, List.append_assoc]

theorem Ordered.drain (ordered : Ordered took got s) (valid : s.ring.Valid) (limit : Nat) :
    Ordered took (got ++ (s.drain limit).1) (s.drain limit).2 := by
  obtain ⟨left, -⟩ := drainWithin_keeps (limit + 1) limit s
  rw [ordered_iff] at ordered ⊢
  rw [ordered, backlog_drainWithin valid (limit + 1) limit, ← List.append_assoc]
  exact congrArg _ left.symm

theorem Ordered.absorb (ordered : Ordered took got s) (valid : s.ring.Valid)
    (words : List UInt64) : Ordered (took ++ [words]) got (s.absorb words).2 := by
  have one : decode s.bytesLeft [words] = scan s.bytesLeft words :=
    Prod.ext (List.append_nil _) rfl
  rw [ordered_iff] at ordered ⊢
  rw [decode_append, ordered, one, backlog_absorb valid, bytesLeft_absorb, List.append_assoc]

end Stream

namespace Reader

variable {start now now' : Moment Reader σ} {width capacity : Nat}
  {took more : List (List UInt64)} {got : List UInt8}

/-- What is received is a message, and leaves the transport as wide as it was. -/
theorem finish_receive {inner : Moment Transport σ} {outcome : Except Stop (Option Message)}
    (received : Transport.receive.finish (carrier now) = (outcome, inner)) :
    inner.self.width = now.self.stream.transport.width ∧
      ∀ message, outcome = .ok (some message) →
        message.words.length ≤ now.self.stream.transport.width := by
  have ends := Task.finish_ends (fun outcome (inner : Moment Transport σ) =>
      inner.self.width = now.self.stream.transport.width ∧ ∀ message, outcome = .ok (some message) →
        message.words.length ≤ now.self.stream.transport.width)
    ((Transport.ends_receive_width (carrier now)).mono
      (fun taken _ kept => ⟨kept.1, fun message same => kept.2 message (Except.ok.inj same)⟩)
      fun _ _ kept => ⟨kept, fun _ same => by cases same⟩)
  rw [received] at ends
  exact ends

theorem self_finish_pause (now : Moment Reader σ) : (Task.pause.finish now).2.self = now.self := by
  have kept : Task.KeepsSelf (· = now.self) (Task.pause : Task Reader σ Unit) := .pause
  exact Task.finish_ends (fun _ last => last.self = now.self) (kept now rfl)

theorem width_finish_send (message : Message) (flags : SendFlags) (now : Moment Transport σ) :
    ((Transport.send message flags).finish now).2.self.width = now.self.width :=
  Task.finish_ends (fun _ (last : Moment Transport σ) => last.self.width = now.self.width)
    (Transport.keepsWidth_send message flags now rfl)

theorem Step.bounded (step : Step now more now')
    (bounded : Stream.Bounded width capacity now.self.stream) :
    Stream.Bounded width capacity now'.self.stream := by
  cases step with
  | pass =>
      rw [self_finish_pause]
      exact bounded
  | drain upTo => exact bounded.drain _
  | @take inner message empty received =>
      obtain ⟨same, fits⟩ := finish_receive received
      have crossed : Stream.Bounded width capacity (carrying now inner).self.stream :=
        { bounded with wide := same.trans bounded.wide }
      exact crossed.absorb empty (bounded.wide ▸ fits message rfl)
  | miss empty received vain =>
      exact { bounded with wide := (finish_receive received).1.trans bounded.wide }
  | send message flags =>
      exact { bounded with wide := (width_finish_send message flags _).trans bounded.wide }
  | hangUp => exact { bounded with }

theorem Step.ordered (step : Step now more now') (valid : now.self.stream.ring.Valid)
    (ordered : Stream.Ordered took (got ++ now.self.filled) now.self.stream) :
    Stream.Ordered (took ++ more) (got ++ now'.self.filled) now'.self.stream := by
  cases step with
  | pass =>
      rw [self_finish_pause, List.append_nil]
      exact ordered
  | drain upTo =>
      have drained := ordered.drain valid (upTo - now.self.filled.length)
      rw [List.append_assoc] at drained
      rw [List.append_nil]
      exact drained
  | @take inner message empty received =>
      exact Stream.Ordered.absorb (s := (carrying now inner).self.stream) ordered valid message.words
  | miss empty received vain =>
      rw [List.append_nil]
      exact ordered
  | send message flags =>
      rw [List.append_nil]
      exact ordered
  | hangUp =>
      rw [List.append_nil]
      exact ordered

namespace Course

theorem bounded (course : Course start took now)
    (bounded : Stream.Bounded width capacity start.self.stream) :
    Stream.Bounded width capacity now.self.stream := by
  induction course with
  | start => exact bounded
  | next _ step ih => exact step.bounded ih

theorem ordered {before : List (List UInt64)} (course : Course start took now)
    (bounded : Stream.Bounded width capacity start.self.stream)
    (ordered : Stream.Ordered before (got ++ start.self.filled) start.self.stream) :
    Stream.Ordered (before ++ took) (got ++ now.self.filled) now.self.stream := by
  induction course with
  | start => rwa [List.append_nil]
  | next course step ih =>
      rw [← List.append_assoc]
      exact step.ordered (course.bounded bounded).valid ih

end Course

/-! ### Every operation is made of these steps -/

/-- The moment is reached by steps. -/
def Reached (start now : Moment Reader σ) : Prop := ∃ took, Course start took now

namespace Reached

theorem refl (start : Moment Reader σ) : Reached start start := ⟨[], .start⟩

theorem step (reached : Reached start now) (step : Step now more now') : Reached start now' := by
  obtain ⟨took, course⟩ := reached
  exact ⟨_, course.next step⟩

theorem valid (reached : Reached start now)
    (bounded : Stream.Bounded width capacity start.self.stream) :
    now.self.stream.ring.Valid := by
  obtain ⟨took, course⟩ := reached
  exact (course.bounded bounded).valid

theorem pause (reached : Reached start now) :
    Task.Ends (Task.pause now) (fun _ now' => Reached start now' ∧ now'.self = now.self)
      fun _ now' => Reached start now' ∧ now'.self = now.self :=
  Task.ends_of_finish (fun _ now' => Reached start now' ∧ now'.self = now.self)
    ⟨reached.step (.pass now), self_finish_pause now⟩

/-- Where nothing is held, a message may be taken. -/
theorem pull (reached : Reached start now) (empty : now.self.stream.buffered = 0) :
    Task.Ends (onStream Stream.pull now)
      (fun fragment now' => Reached start now' ∧ now'.self.filled = now.self.filled ∧
        (fragment = none → now'.self.stream.buffered = 0))
      fun _ now' => Reached start now' ∧ now'.self.filled = now.self.filled := by
  have asked : Task.Ends (Transport.canReceive (carrier now)) (fun _ inner => inner = carrier now)
      fun _ inner => inner = carrier now := by
    unfold Transport.canReceive
    rw [Task.self_bind]
    cases (carrier now).self with
    | endpoint ep => rfl
    | slots chan =>
        simp only [Task.machine_bind]
        cases chan.canReceive (carrier now).scene.machine with
        | ok waits => rfl
        | error cause => rfl
  apply Task.ends_within
  unfold Stream.pull
  apply Task.ends_bind
  apply Task.ends_within
  refine asked.mono ?_ ?_
  · rintro waits inner rfl
    cases waits with
    | false => exact ⟨reached, rfl, fun _ => empty⟩
    | true =>
        apply Task.ends_bind
        apply Task.ends_within
        change Task.Ends (Transport.receive (carrier now)) _ _
        cases ran : Transport.receive (carrier now) with
        | error stop inner =>
            have received : Transport.receive.finish (carrier now) = (.error stop, inner) := by
              rw [Task.finish, ran]
            exact ⟨reached.step (.miss empty received fun _ same => by cases same), rfl⟩
        | ok taken inner =>
            have received : Transport.receive.finish (carrier now) = (.ok taken, inner) := by
              rw [Task.finish, ran]
            cases taken with
            | none =>
                refine ⟨reached.step (.miss empty received fun _ same => by cases same), rfl, ?_⟩
                exact fun _ => empty
            | some message =>
                refine ⟨reached.step (.take empty received), rfl, fun none => ?_⟩
                cases none
  · rintro stop inner rfl
    exact ⟨reached, rfl⟩

end Reached

/-- The buffer is not fuller than it may be. -/
def Filling (start : Moment Reader σ) (upTo : Nat) (now : Moment Reader σ) : Prop :=
  Reached start now ∧ now.self.filled.length ≤ upTo

theorem keepsFilling_pause (start : Moment Reader σ) (upTo : Nat) :
    Task.Keeps (Filling start upTo) (Task.pause : Task Reader σ Unit) := by
  rintro now ⟨reached, within⟩
  refine reached.pause.mono ?_ ?_
  · rintro _ now' ⟨reached', same⟩
    exact ⟨reached', same ▸ within⟩
  · rintro _ now' ⟨reached', same⟩
    exact ⟨reached', same ▸ within⟩

section Receiving

variable (bounded : Stream.Bounded width capacity start.self.stream)

include bounded

/-- A round goes on to the transport only after it has handed out all that was held. -/
theorem keepsFilling_fillRound (upTo : Nat) :
    Task.Keeps (Filling start upTo) (fillRound upTo : Task Reader σ (Option Unit)) := by
  rintro now ⟨reached, within⟩
  obtain ⟨within, empty⟩ := drain_within (reached.valid bounded) within
  have drained := reached.step (.drain now upTo)
  unfold fillRound
  rw [Task.modifySelf_bind, Task.self_bind]
  split
  · exact ⟨drained, within⟩
  · rename_i more
    have less : (now.self.drain upTo).filled.length < upTo :=
      Nat.lt_of_le_of_ne within fun full => more (.inl full)
    have nothing : (now.self.drain upTo).stream.buffered = 0 := by
      rw [← Stream.length_backlog, empty less, List.length_nil]
    apply Task.ends_bind
    refine (drained.pull nothing).mono ?_ ?_
    · rintro (_ | fragment) now' ⟨reached', same, -⟩
      · exact ⟨reached', same ▸ within⟩
      · exact ⟨reached', same ▸ within⟩
    · rintro stop now' ⟨reached', same⟩
      exact ⟨reached', same ▸ within⟩

omit bounded in
/-- Until a byte string begins nothing is held, so a message may be taken at each poll. -/
theorem ends_awaitStart (reached : Reached start now) (unfilled : now.self.filled = [])
    (empty : now.self.stream.buffered = 0) :
    Task.Ends (awaitStart now) (fun _ now' => Reached start now' ∧ now'.self.filled = [])
      fun _ now' => Reached start now' := by
  refine Task.ends_polling (fun now' => Reached start now' ∧ now'.self.filled = [] ∧
    now'.self.stream.buffered = 0) ?_ ?_ ?_ ⟨reached, unfilled, empty⟩
  · rintro mid ⟨reached, unfilled, empty⟩
    rw [Task.self_bind]
    split
    · exact reached
    · apply Task.ends_bind
      refine (reached.pull empty).mono ?_ fun _ _ ends => ends.1
      rintro (_ | _ | _ | _) last ⟨reached', same, still⟩
      · exact ⟨reached', same.trans unfilled, still rfl⟩
      · exact ⟨reached', same.trans unfilled⟩
      · exact reached'
      · exact reached'
  · rintro mid ⟨reached, unfilled, empty⟩
    refine reached.pause.mono ?_ fun _ _ ends => ends.1
    rintro _ last ⟨reached', same⟩
    rw [same]
    exact ⟨reached', unfilled, empty⟩
  · rintro mid ⟨reached, -, -⟩
    exact reached

theorem ends_receiveMessage (length : Nat) (unfilled : start.self.filled = []) :
    Task.Ends (receiveMessage length start) (fun _ now' => Reached start now')
      fun _ now' => Reached start now' := by
  unfold receiveMessage
  rw [Task.self_bind]
  split
  · exact .refl start
  · rename_i boundary
    have empty : start.self.stream.buffered = 0 := by
      by_contra some
      exact boundary (.inr some)
    apply Task.ends_bind
    refine (ends_awaitStart (.refl start) unfilled empty).mono ?_ fun _ _ reached => reached
    rintro total mid ⟨reached, unfilled⟩
    split
    · exact reached
    · have within : mid.self.filled.length ≤ total.toNat := by
        rw [unfilled]
        exact Nat.zero_le _
      apply Task.ends_bind
      refine (Stream.rounds_receiveAll (keepsFilling_fillRound bounded total.toNat)
        (keepsFilling_pause start _) mid ⟨reached, within⟩).mono ?_ ?_
      · exact fun _ _ ends => ends.1
      · exact fun _ _ ends => ends.1

end Receiving

section Sending

/-- A sender reads nothing. -/
def Sending (start : Moment Reader σ) (r : Reader) (now : Moment Stream σ) : Prop :=
  Reached start ⟨{ r with stream := now.self }, now.scene, now.turns⟩

variable {r : Reader}

theorem keepsSending_send (message : Message) (flags : SendFlags) :
    Task.Keeps (Sending start r)
      (Stream.onTransport (Transport.send message flags) : Task Stream σ Unit) := by
  intro now sending
  apply Task.ends_within
  exact Task.ends_of_finish (fun _ (inner : Moment Transport σ) =>
    Sending start r ⟨{ now.self with transport := inner.self }, inner.scene, inner.turns⟩)
    (sending.step (.send _ message flags))

theorem keepsSending_sendTail (tail : List (List UInt64)) :
    Task.Keeps (Sending start r) (Stream.sendTail tail : Task Stream σ Unit) := by
  induction tail with
  | nil => exact Task.Keeps.pure _
  | cons words rest ih =>
      cases rest with
      | nil =>
          apply Task.Keeps.bind Task.Keeps.self
          intro s
          exact keepsSending_send _ _
      | cons further rest =>
          apply Task.Keeps.bind (keepsSending_send _ _)
          intro _
          exact ih

theorem keepsSending_streamSend (data : List UInt8) :
    Task.Keeps (Sending start r) (Stream.send data : Task Stream σ Unit) := by
  intro now sending
  unfold Stream.send
  rw [Task.self_bind]
  by_cases closed : now.self.closed = true
  · rw [if_pos closed]
    exact sending
  rw [if_neg closed]
  by_cases mark : UInt64.ofNat data.length = Stream.closeMark
  · rw [if_pos mark]
    exact sending
  rw [if_neg mark]
  split
  · exact sending
  · exact Task.Keeps.bind (keepsSending_send _ _) (fun _ => keepsSending_sendTail _) now sending

theorem keepsSending_close :
    Task.Keeps (Sending start r) (Stream.close : Task Stream σ Unit) := by
  intro now sending
  unfold Stream.close
  rw [Task.self_bind]
  split
  · exact sending
  · rw [Task.setSelf_bind]
    have closed : Sending start r { now with self := { now.self with closed := true } } :=
      sending.step (.hangUp _)
    refine Task.Keeps.bind (Task.Keeps.settle (keepsSending_send _ _)) (fun _ => ?_) _ closed
    exact Task.Keeps.pure _

theorem ends_onStream {task : Task Stream σ α}
    (keeps : Task.Keeps (Sending start start.self) task) :
    Task.Ends (onStream task start) (fun _ now' => Reached start now')
      fun _ now' => Reached start now' := by
  apply Task.ends_within
  exact (keeps ⟨start.self.stream, start.scene, start.turns⟩ (Reached.refl start)).mono
    (fun _ _ sending => sending) fun _ _ sending => sending

end Sending

end Reader

namespace Stream

/-- The task of an operation, with the buffer that it fills if it receives. It gives the number
of bytes that it reports. -/
def Op.run : Op → Task Reader σ Nat
  | send data => do
      Reader.onStream (Stream.send data)
      return 0
  | close => do
      Reader.onStream Stream.close
      return 0
  | receiveAvailable length => Reader.receiveAvailable length
  | receive length => Reader.receive length
  | receiveAll length => do
      Reader.receiveAll length
      return length
  | receiveMessage length => Reader.receiveMessage length

/-- However an operation ends, it went there by steps. -/
theorem Op.reached (op : Op) {start : Moment Reader σ} {width capacity : Nat}
    (bounded : Bounded width capacity start.self.stream) (unfilled : start.self.filled = []) :
    Reader.Reached start (op.run.finish start).2 := by
  have filling (upTo : Nat) : Reader.Filling start upTo start := by
    refine ⟨.refl start, ?_⟩
    rw [unfilled]
    exact Nat.zero_le _
  have rounds (upTo : Nat) := Reader.keepsFilling_fillRound bounded upTo
  have pauses (upTo : Nat) := Reader.keepsFilling_pause start upTo
  have ends : Task.Ends (op.run start) (fun _ now' => Reader.Reached start now')
      fun _ now' => Reader.Reached start now' := by
    cases op with
    | send data =>
        exact Task.ends_bind (Reader.ends_onStream (Reader.keepsSending_streamSend data))
    | close => exact Task.ends_bind (Reader.ends_onStream Reader.keepsSending_close)
    | receiveAvailable length =>
        exact (rounds_receiveAvailable (rounds length) start (filling length)).mono
          (fun _ _ ends => ends.1) fun _ _ ends => ends.1
    | receive length =>
        exact (rounds_receive (rounds length) (pauses length) start (filling length)).mono
          (fun _ _ ends => ends.1) fun _ _ ends => ends.1
    | receiveAll length =>
        apply Task.ends_bind
        exact (rounds_receiveAll (rounds length) (pauses length) start (filling length)).mono
          (fun _ _ ends => ends.1) fun _ _ ends => ends.1
    | receiveMessage length => exact Reader.ends_receiveMessage bounded length unfilled
  exact Task.finish_ends (fun _ now' => Reader.Reached start now') ends

/-! ### All histories -/

/-- An operation that ended, in whatever way. -/
structure Deed (σ : Type) where
  op : Op
  /-- The moment at which it began, with an empty buffer. -/
  start : Moment Reader σ
  outcome : Except Stop Nat
  /-- The moment at which it ended, with what reached the buffer. -/
  last : Moment Reader σ

/-- An operation on a stream, in a scene and with the turns that others will take. -/
def Op.deed (op : Op) (s : Stream) (scene : Scene σ) (turns : List (Turn σ)) : Deed σ where
  op := op
  start := ⟨{ stream := s }, scene, turns⟩
  outcome := (op.run.finish ⟨{ stream := s }, scene, turns⟩).1
  last := (op.run.finish ⟨{ stream := s }, scene, turns⟩).2

/-- One operation after the other. Before and during each of them anything may happen to the
machine, and before it to the transport as long as its messages are as wide as they were. -/
inductive History (s₀ : Stream) : List (Deed σ) → Stream → Prop
  | new : History s₀ [] s₀
  | perform {deeds : List (Deed σ)} {s : Stream} {t : Transport} (op : Op) (scene : Scene σ)
      (turns : List (Turn σ)) (history : History s₀ deeds s) (wide : t.width = s.transport.width) :
      History s₀ (deeds ++ [op.deed { s with transport := t } scene turns])
        (op.deed { s with transport := t } scene turns).last.self.stream

/-- The bytes that were handed out, also by operations that failed. -/
def handedOut (deeds : List (Deed σ)) : List UInt8 :=
  deeds.flatMap fun deed => deed.last.self.filled

/-- These messages were taken by an operation, step by step. -/
def Deed.Took (deed : Deed σ) (took : List (List UInt64)) : Prop :=
  Reader.Course deed.start took deed.last

theorem bounded_create {t : Transport} {length : Nat} {s : Stream}
    (created : Stream.create t length = .ok (.ok s)) : Bounded t.width s.ring.capacity s ∧
      Ordered [] [] s := by
  obtain ⟨across, valid, empty, left, -⟩ := create_ok created
  have none : s.buffered = 0 := by rw [← length_backlog, empty, List.length_nil]
  constructor
  · refine ⟨valid, congrArg Transport.width across, rfl, by omega, fun some => ?_⟩
    exact absurd (List.append_eq_nil_iff.mp empty).2 some
  · rw [ordered_iff, empty, left]
    rfl

/-- However long a history and whatever the peer sends, a receiving end stays within bounds.
Each operation consists of steps, and takes a message only where nothing is held; whatever
steps were taken since it began, the stream holds no more bytes than a message does, its ring
is as large as at first, and bytes are parked only if the ring is smaller than a message; and
what was handed out, what is in the ring and what is parked, in this order, are the bytes of
all messages that were taken. -/
theorem buffering_bounded {t : Transport} {length : Nat} {s₀ s : Stream} {deeds : List (Deed σ)}
    (created : Stream.create t length = .ok (.ok s₀)) (history : History s₀ deeds s) :
    Bounded t.width s₀.ring.capacity s ∧
      (∀ deed ∈ deeds, ∀ now, Reader.Reached deed.start now →
        Bounded t.width s₀.ring.capacity now.self.stream) ∧
      ∃ took : List (List (List UInt64)), List.Forall₂ Deed.Took deeds took ∧
        Ordered took.flatten (handedOut deeds) s := by
  induction history with
  | new =>
      obtain ⟨bounded, ordered⟩ := bounded_create created
      exact ⟨bounded, fun _ mem => absurd mem List.not_mem_nil, [], .nil, ordered⟩
  | @perform deeds s t' op scene turns history wide ih =>
      obtain ⟨bounded, within, took, steps, ordered⟩ := ih
      let deed := op.deed { s with transport := t' } scene turns
      have begun : Bounded t.width s₀.ring.capacity deed.start.self.stream :=
        { bounded with wide := wide.trans bounded.wide }
      obtain ⟨more, course⟩ : Reader.Reached deed.start deed.last := op.reached begun rfl
      refine ⟨course.bounded begun, ?_, took ++ [more], ?_, ?_⟩
      · intro deed' mem now reached
        rcases List.mem_append.mp mem with old | new
        · exact within deed' old now reached
        · obtain rfl := List.mem_singleton.mp new
          obtain ⟨_, course⟩ := reached
          exact course.bounded begun
      · exact List.rel_append steps (.cons course .nil)
      · have unfilled : handedOut deeds ++ deed.start.self.filled = handedOut deeds :=
          List.append_nil _
        have before : Ordered took.flatten (handedOut deeds ++ deed.start.self.filled)
            deed.start.self.stream := unfilled.symm ▸ ordered
        simpa [handedOut] using course.ordered begun before

/-- More bytes are announced than there can be, and eight of them wait. A message read learns
the length and gives up. -/
def announced : Deed Unit :=
  (Op.receiveMessage 4).deed Inlet.fresh.listener.stream ⟨Inlet.flooded.machine, ()⟩ []

/-- Then one byte is read. -/
def sipped : Deed Unit :=
  (Op.receiveAvailable 1).deed announced.last.self.stream announced.last.scene []

/-- The ring holds one byte and a message eight, so that seven bytes are parked. -/
theorem buffering_bounded_flooded :
    Stream.create (.slots SlotChannel.lower) 2 = .ok (.ok Inlet.fresh.listener.stream) ∧
    History Inlet.fresh.listener.stream [announced, sipped] sipped.last.self.stream ∧
    announced.outcome = .error (.failed .overflow) ∧ sipped.outcome = .ok 1 ∧
    sipped.last.self.stream.parked = [2, 3, 4, 5, 6, 7, 8] ∧
    Bounded 1 1 sipped.last.self.stream := by
  have created : Stream.create (.slots SlotChannel.lower) 2 =
      .ok (.ok Inlet.fresh.listener.stream) := rfl
  have first : History Inlet.fresh.listener.stream [announced] announced.last.self.stream :=
    .perform (t := Inlet.fresh.listener.stream.transport) (.receiveMessage 4) _ [] .new rfl
  have history :
      History Inlet.fresh.listener.stream [announced, sipped] sipped.last.self.stream :=
    .perform (t := announced.last.self.stream.transport) (.receiveAvailable 1)
      announced.last.scene [] first (Eq.refl announced.last.self.stream.transport.width)
  exact ⟨created, history, rfl, rfl, by decide +kernel, (buffering_bounded created history).1⟩

end Stream

end Conduit

/-
# Closing a stream loses nothing and is final

A listener sees the stream closed only once it has every byte that was sent, and what it
then holds is handed out by its reads, in order, before they report the end. A wait for
a full buffer fails exactly if fewer bytes come before the end than the buffer holds. On
either side a closed stream stays closed, takes no more messages and sends none
(`Final`). `close_loses_nothing` is the result for every run in which one party sends and
the other one receives.
-/

import Conduit.Proofs.Stream.Filling

namespace Conduit

namespace Stream

variable {σ : Type}

/-- What can still be done with a closed stream: the bytes that it holds are read, and that
is all. No operation waits, and none uses the machine. -/
structure Final (s : Stream) : Prop where
  drained : ∀ limit, (s.drain limit).2.closed = true ∧
    (s.drain limit).2.backlog = s.backlog.drop limit
  receiveAvailable : ∀ (σ : Type) (scene : Scene σ) (turns : List (Turn σ)) (length : Nat),
    Reader.receiveAvailable length ⟨{ stream := s }, scene, turns⟩ =
      .ok (min length s.backlog.length) ⟨⟨(s.drain length).2, s.backlog.take length⟩, scene, turns⟩
  receive : ∀ (σ : Type) (scene : Scene σ) (turns : List (Turn σ)) (length : Nat),
    Reader.receive length ⟨{ stream := s }, scene, turns⟩ =
      .ok (min length s.backlog.length) ⟨⟨(s.drain length).2, s.backlog.take length⟩, scene, turns⟩
  receiveAll : ∀ (σ : Type) (scene : Scene σ) (turns : List (Turn σ)) (length : Nat),
    Reader.receiveAll length ⟨{ stream := s }, scene, turns⟩ =
      if length ≤ s.backlog.length then
        .ok () ⟨⟨(s.drain length).2, s.backlog.take length⟩, scene, turns⟩
      else .error (.failed .closed) ⟨⟨(s.drain length).2, s.backlog⟩, scene, turns⟩
  receiveMessage : ∀ (σ : Type) (scene : Scene σ) (turns : List (Turn σ)) (length : Nat),
    Reader.receiveMessage length ⟨{ stream := s }, scene, turns⟩ =
      .error (.failed (if s.bytesLeft = 0 ∧ s.backlog = [] then .closed else .invalidSize))
        ⟨{ stream := s }, scene, turns⟩
  send : ∀ (σ : Type) (scene : Scene σ) (turns : List (Turn σ)) (data : List UInt8),
    Stream.send data ⟨s, scene, turns⟩ = .error (.failed .closed) ⟨s, scene, turns⟩
  close : ∀ (σ : Type) (scene : Scene σ) (turns : List (Turn σ)),
    Stream.close ⟨s, scene, turns⟩ = .ok () ⟨s, scene, turns⟩

/-! ### Reading what a closed stream holds -/

variable {s : Stream}

/-- The buffer after it took what a closed stream holds. -/
theorem drain_new (valid : s.ring.Valid) (length : Nat) :
    ({ stream := s } : Reader).drain length =
      ⟨(s.drain length).2, s.backlog.take length⟩ := by
  obtain ⟨taken, -⟩ := drain_eq valid length
  simp only [Reader.drain, List.length_nil, Nat.sub_zero, List.nil_append, taken]

/-- From a closed stream a buffer is filled with what is held, and no message is taken. -/
theorem fill_closed (valid : s.ring.Valid) (closed : s.closed = true) (scene : Scene σ)
    (turns : List (Turn σ)) (length : Nat) :
    Reader.fill length ⟨{ stream := s }, scene, turns⟩ =
      .ok () ⟨⟨(s.drain length).2, s.backlog.take length⟩, scene, turns⟩ := by
  have shut : (({ stream := s } : Reader).drain length).stream.closed = true :=
    (Reader.drain_keeps _ length).2.2.trans closed
  have round := Reader.fillRound_done scene turns (.inr shut)
  rw [drain_new valid] at round
  unfold Reader.fill
  rw [Task.get_bind]
  have some : 0 < (turns.length + 1) * (s.transport.backlogLimit scene.machine + 2) :=
    Nat.mul_pos (Nat.succ_pos _) (Nat.succ_pos _)
  obtain ⟨bound, same⟩ := Nat.exists_eq_succ_of_ne_zero (Nat.ne_of_gt some)
  rw [same]
  exact Task.repeatWithin_some bound round

theorem final_of_closed (valid : s.ring.Valid) (closed : s.closed = true) : Final s := by
  have shut : ∀ length, (s.drain length).2.closed = true := fun length =>
    (drainWithin_keeps (length + 1) length s).2.2.trans closed
  have left : ∀ length, (s.drain length).2.backlog = s.backlog.drop length := fun length =>
    (drain_eq valid length).2
  constructor
  · exact fun limit => ⟨shut limit, left limit⟩
  · intro σ scene turns length
    unfold Reader.receiveAvailable
    rw [Task.bind_ok (fill_closed valid closed scene turns length), Task.self_bind,
      List.length_take]
    rfl
  · intro σ scene turns length
    apply Task.await_ok
    rw [Task.bind_ok (fill_closed valid closed scene turns length), Task.self_bind,
      if_pos (.inr (.inr (shut length))), List.length_take]
    rfl
  · intro σ scene turns length
    have filled := fill_closed valid closed scene turns length
    by_cases enough : length ≤ s.backlog.length
    · rw [if_pos enough]
      apply Task.await_ok
      rw [Task.bind_ok filled, Task.self_bind, if_pos (List.length_take_of_le enough)]
      rfl
    · have all : s.backlog.length ≤ length := Nat.le_of_not_le enough
      have none : (s.drain length).2.buffered = 0 := by
        rw [← length_backlog, left, List.drop_of_length_le all]
        rfl
      rw [List.take_of_length_le all] at filled
      rw [if_neg enough]
      apply Task.await_error
      rw [Task.bind_ok filled, Task.self_bind, if_neg (Nat.ne_of_lt (Nat.lt_of_not_le enough)),
        if_pos ⟨shut length, none⟩]
      rfl
  · intro σ scene turns length
    unfold Reader.receiveMessage
    rw [Task.self_bind]
    have held : s.buffered = 0 ↔ s.backlog = [] := by
      rw [← length_backlog, List.length_eq_zero_iff]
    by_cases between : s.bytesLeft = 0 ∧ s.backlog = []
    · rw [if_pos between, if_neg (by rw [not_or, not_not, not_not, held]; exact between)]
      apply Task.bind_error
      apply Task.await_error
      rw [Task.self_bind, if_pos closed]
      rfl
    · rw [if_neg between, if_pos (by rw [← not_and_or, held]; exact between)]
      rfl
  · intro σ scene turns data
    unfold Stream.send
    rw [Task.self_bind, if_pos closed]
    rfl
  · intro σ scene turns
    unfold Stream.close
    rw [Task.self_bind, if_pos closed]
    rfl

/-! ### The end of a stream -/

namespace Pair

variable {pair : Pair}

/-- If the listener sees the stream closed, the speaker closed it, everything it sent was
handed out or is held, and nothing is on the way. -/
def Complete (pair : Pair) : Prop :=
  pair.right.stream.closed = true →
    pair.left.stream.closed = true ∧ pair.left.rest = [] ∧
      pair.right.waiting pair.machine = [] ∧ pair.right.stream.bytesLeft = 0 ∧
      pair.right.got ++ pair.right.stream.ring.toList ++ pair.right.stream.parked =
        pair.left.sent.flatten

/-- A wait of the listener for so many bytes gives them, or fails because fewer come before
the end, or lasts when all turns have passed and the end is not yet on the way. -/
def FillsOrEnds (pair : Pair) (length : Nat) (turns : List (Turn Party)) : Prop :=
  match Reader.receiveAll length
    ⟨{ stream := pair.right.stream }, ⟨pair.machine, pair.left⟩, turns⟩ with
  | .ok () now =>
      let remaining := now.scene.others.sent.flatten.drop pair.right.got.length
      length ≤ remaining.length ∧ now.self.filled = remaining.take length
  | .error (.failed e) now =>
      let remaining := now.scene.others.sent.flatten.drop pair.right.got.length
      e = .closed ∧ now.scene.others.stream.closed = true ∧ remaining.length < length ∧
        now.self.filled = remaining
  | .error (.halted h) now =>
      h = .stalled ∧ now.turns = [] ∧
        ¬ (now.scene.others.stream.closed = true ∧ now.scene.others.rest = [])

theorem complete_of_relaying {read : List (List UInt64)}
    (relaying : Relaying pair.machine pair.left pair.right read) : pair.Complete := by
  intro closed
  obtain ⟨shut, idle, waiting, held, between, -⟩ := relaying.complete closed
  exact ⟨shut, idle, waiting, between, by rw [← held, backlog, List.append_assoc]⟩

theorem fillsOrEnds_of_relaying {read : List (List UInt64)}
    (relaying : Relaying pair.machine pair.left pair.right read) (length : Nat)
    {turns : List (Turn Party)} (talking : ∀ turn ∈ turns, Talking turn) :
    pair.FillsOrEnds length turns := by
  have reading : Reading pair.right length none pair.left pair.machine
      { stream := pair.right.stream } read := by
    refine ⟨?_, Nat.zero_le _, fun _ mem => nomatch mem⟩
    rw [Party.into_new]
    exact relaying
  have amid : Task.Amid _ (Hearing pair.right length none pair.left)
      ⟨{ stream := pair.right.stream }, ⟨pair.machine, pair.left⟩, turns⟩ :=
    ⟨⟨⟨read, reading⟩, .refl _⟩, talking⟩
  have ends := ends_receiveAll amid
  unfold FillsOrEnds
  cases ran : Reader.receiveAll length
      ⟨{ stream := pair.right.stream }, ⟨pair.machine, pair.left⟩, turns⟩ with
  | ok _ now =>
      rw [ran] at ends
      obtain ⟨⟨⟨read', reading'⟩, -⟩, full⟩ := ends
      obtain ⟨further, sent⟩ := reading'.relaying.delivered
      simp only [Party.into, List.append_assoc] at sent
      simp only [← sent, List.drop_left]
      refine ⟨?_, ?_⟩
      · rw [List.length_append, full]
        exact Nat.le_add_right _ _
      · rw [← full, List.take_left]
  | error stop now =>
      rw [ran] at ends
      obtain ⟨⟨⟨read', reading'⟩, -⟩, less, held, reason⟩ := ends
      cases stop with
      | failed e =>
          obtain ⟨isClosed, shut⟩ := reason
          obtain ⟨closed, -, -, sent, -⟩ := reading'.relaying.complete shut
          simp only [Party.into, held, List.append_nil] at sent
          simp only [← sent, List.drop_left]
          exact ⟨isClosed, closed, less, trivial⟩
      | halted h =>
          obtain ⟨stalled, last, isOpen, none⟩ := reason
          refine ⟨stalled, last, ?_⟩
          rintro ⟨closed, idle⟩
          have same := reading'.relaying.closed_eq none idle
          rw [closed] at same
          exact Bool.false_ne_true (isOpen.symm.trans same)

end Pair

/-- On a new stream, over a capability channel or over shared memory, let one party send
and close, and the other one receive, in whatever order their steps come. The end is seen
only when nothing that was sent is missing, and a wait for a full buffer fails only then
and exactly if too few bytes are left. Neither end is ever open again; on a closed end
reads give what is held and then report the end, and nothing is sent or taken. -/
theorem close_loses_nothing {start pair : Pair} (new : New start) (run : start.Dialogue pair) :
    pair.Complete ∧
      (∀ length turns, (∀ turn ∈ turns, Talking turn) → pair.FillsOrEnds length turns) ∧
      (∀ later, pair.Dialogue later →
        (pair.left.stream.closed = true → later.left.stream.closed = true) ∧
        (pair.right.stream.closed = true → later.right.stream.closed = true)) ∧
      (pair.left.stream.closed = true → Final pair.left.stream) ∧
      (pair.right.stream.closed = true → Final pair.right.stream) := by
  obtain ⟨⟨read, relaying⟩, -⟩ := run.relaying (Pair.relaying_new new)
  obtain ⟨-, -, -, fitL, fitR, -⟩ := relaying.conserving
  refine ⟨Pair.complete_of_relaying relaying, ?_, ?_, ?_, ?_⟩
  · exact fun length turns talking => Pair.fillsOrEnds_of_relaying relaying length talking
  · intro later further
    obtain ⟨-, sinceL, sinceR⟩ := further.relaying relaying
    exact ⟨sinceL.closed, sinceR.closed⟩
  · exact fun closed => final_of_closed fitL.ring closed
  · exact fun closed => final_of_closed fitR.ring closed

/-- Two byte strings and the end come while the listener waits for more bytes than that. -/
theorem close_loses_nothing_narrow :
    ∃ final : Pair, New narrow ∧ narrow.Dialogue final ∧ final.right.stream.closed = true ∧
      final.left.sent = [[1, 2, 3], [4]] ∧ final.right.got = [1, 2, 3, 4] ∧ final.Complete ∧
      Final final.left.stream ∧ Final final.right.stream := by
  have talking : ∀ turn ∈ [acting (.send [1, 2, 3]), acting (.send [4]), acting .close],
      Doing .speaker turn := by
    have short : ∀ data ∈ [[1, 2, 3], [(4 : UInt8)]], data.length < Ring.lengthLimit := by decide
    intro turn mem
    simp only [List.mem_cons, List.not_mem_nil, or_false] at mem
    rcases mem with rfl | rfl | rfl
    · exact (takes_acting (.send [1, 2, 3]) rfl (short _ (by decide))).follows
    · exact (takes_acting (.send [4]) rfl (short _ (by decide))).follows
    · exact (takes_acting .close rfl trivial).follows
  have ran : (outcome? (Party.perform (.receiveAll 5) ⟨narrow.right, ⟨narrow.machine, narrow.left⟩,
      [acting (.send [1, 2, 3]), acting (.send [4]), acting .close]⟩)).map
        (fun now => (now.self.stream.closed, now.scene.others.stream.closed, now.scene.others.sent,
          now.self.got)) =
      some (true, true, [[1, 2, 3], [4]], [1, 2, 3, 4]) := by decide +kernel
  obtain ⟨now, ended, same⟩ := Option.map_eq_some_iff.mp ran
  obtain ⟨shut, same⟩ := Prod.mk.inj same
  obtain ⟨closed, same⟩ := Prod.mk.inj same
  obtain ⟨sent, got⟩ := Prod.mk.inj same
  obtain ⟨q, ⟨m, p⟩, turns⟩ := now
  have short : (Op.receiveAll 5).Short := trivial
  have run : narrow.Dialogue ⟨m, p, q⟩ := .single
    (.inr (.perform rfl short rfl talking ended))
  obtain ⟨complete, -, -, left, right⟩ := close_loses_nothing new_narrow run
  exact ⟨_, new_narrow, run, shut, sent, got, complete, left closed, right shut⟩

end Stream

end Conduit

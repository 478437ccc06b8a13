/-
# How far a buffer is filled

While only the speaker sends, a buffer is filled with what there is: `fill` ends as soon as
the buffer is full, or nothing is held and either nothing waits or the stream is closed
(`Reader.Spent`). If the buffer is meant for just what is to come of the current byte
string, no message behind that string is taken (`Reading.meant`). From this follows how
`receiveAll` ends: it fills the buffer, or the stream ends before, or nothing waits for it
when no turn is left (`ends_receiveAll`).
-/

import Conduit.Proofs.Stream.Dialogue
import Conduit.Proofs.Task.Waiting

namespace Conduit

namespace Reader

variable {σ : Type} {r : Reader} {upTo : Nat}

/-- The bytes in the buffer, those that are held, and those that are still to come of the
current byte string. -/
def expected (r : Reader) : Nat :=
  r.filled.length + r.stream.backlog.length + r.stream.bytesLeft.toNat

/-- The buffer is full, or there is nothing to fill it with. -/
structure Spent (upTo : Nat) (m : Machine) (r : Reader) : Prop where
  within : r.filled.length ≤ upTo
  spent : r.filled.length < upTo →
    r.stream.backlog = [] ∧ (r.stream.closed = true ∨ r.stream.transport.waiting m = [])

/-! ### One round -/

/-- The buffer takes what is held, as much as it has room for. -/
theorem drain_eq (valid : r.stream.ring.Valid) (upTo : Nat) :
    (r.drain upTo).filled = r.filled ++ r.stream.backlog.take (upTo - r.filled.length) ∧
      (r.drain upTo).stream.backlog = r.stream.backlog.drop (upTo - r.filled.length) := by
  obtain ⟨taken, left⟩ := Stream.drain_eq valid (upTo - r.filled.length)
  exact ⟨congrArg (r.filled ++ ·) taken, left⟩

theorem drain_keeps (r : Reader) (upTo : Nat) :
    (r.drain upTo).stream.bytesLeft = r.stream.bytesLeft ∧
      (r.drain upTo).stream.transport = r.stream.transport ∧
      (r.drain upTo).stream.closed = r.stream.closed :=
  Stream.drainWithin_keeps (upTo - r.filled.length + 1) (upTo - r.filled.length) r.stream

theorem expected_drain (valid : r.stream.ring.Valid) (upTo : Nat) :
    (r.drain upTo).expected = r.expected := by
  obtain ⟨taken, left⟩ := drain_eq valid upTo
  rw [expected, taken, left, (drain_keeps r upTo).1, expected, List.length_append, List.length_take,
    List.length_drop]
  omega

theorem drain_within (valid : r.stream.ring.Valid) (within : r.filled.length ≤ upTo) :
    (r.drain upTo).filled.length ≤ upTo ∧
      ((r.drain upTo).filled.length < upTo → (r.drain upTo).stream.backlog = []) := by
  obtain ⟨taken, left⟩ := drain_eq valid upTo
  rw [taken, left, List.length_append, List.length_take]
  refine ⟨by omega, fun less => ?_⟩
  apply List.drop_of_length_le
  omega

theorem fillRound_done (scene : Scene σ) (turns : List (Turn σ))
    (done : (r.drain upTo).filled.length = upTo ∨ (r.drain upTo).stream.closed = true) :
    fillRound upTo ⟨r, scene, turns⟩ = .ok (some ()) ⟨r.drain upTo, scene, turns⟩ := by
  unfold fillRound
  rw [Task.modifySelf_bind, Task.self_bind, if_pos done]
  rfl

theorem onStream_pull {scene scene' : Scene σ} {turns : List (Turn σ)} {s : Stream}
    {fragment : Option Fragment}
    (pulled : Stream.pull ⟨r.stream, scene, turns⟩ = .ok fragment ⟨s, scene', turns⟩) :
    onStream Stream.pull ⟨r, scene, turns⟩ =
      .ok fragment ⟨{ r with stream := s }, scene', turns⟩ := by
  simp only [onStream, Task.within, pulled]

theorem fillRound_pull {scene scene' : Scene σ} {turns : List (Turn σ)} {s : Stream}
    {fragment : Option Fragment}
    (more : ¬ ((r.drain upTo).filled.length = upTo ∨ (r.drain upTo).stream.closed = true))
    (pulled : Stream.pull ⟨(r.drain upTo).stream, scene, turns⟩ = .ok fragment ⟨s, scene', turns⟩) :
    fillRound upTo ⟨r, scene, turns⟩ =
      .ok (if fragment.isNone then some () else none)
        ⟨{ r.drain upTo with stream := s }, scene', turns⟩ := by
  unfold fillRound
  rw [Task.modifySelf_bind, Task.self_bind, if_neg more, Task.bind_ok (onStream_pull pulled)]
  cases fragment with
  | none => rfl
  | some fragment => rfl

end Reader

namespace Stream

/-- A party whose stream is read into a buffer. -/
def Party.into (q : Party) (r : Reader) : Party :=
  { q with stream := r.stream, got := q.got ++ r.filled }

theorem Party.into_new (q : Party) : q.into { stream := q.stream } = q := by
  rw [Party.into, List.append_nil]

/-- The listener `q` reads into a buffer, which may be meant for what is to come of
a byte string, given by how many have begun then. -/
structure Reading (q : Party) (upTo : Nat) (string : Option Nat) (p : Party) (m : Machine)
    (r : Reader) (read : List (List UInt64)) : Prop where
  relaying : Relaying m p (q.into r) read
  within : r.filled.length ≤ upTo
  meant : ∀ count ∈ string, r.expected = upTo ∧ starts 0 read = count

variable {m : Machine} {p q : Party} {upTo : Nat} {string : Option Nat} {r : Reader}
  {read : List (List UInt64)}

namespace Reading

theorem drain (reading : Reading q upTo string p m r read) :
    Reading q upTo string p m (r.drain upTo) read := by
  have valid := reading.relaying.valid
  have handed := reading.relaying.handOut (upTo - r.filled.length)
  refine ⟨?_, (Reader.drain_within valid reading.within).1, fun count mem => ?_⟩
  · have same : q.into (r.drain upTo) = { q.into r with
        stream := (r.stream.drain (upTo - r.filled.length)).2
        got := (q.into r).got ++ (r.stream.drain (upTo - r.filled.length)).1 } := by
      simp only [Party.into, Reader.drain, List.append_assoc]
    rw [same]
    exact handed
  · rw [Reader.expected_drain valid]
    exact reading.meant count mem

/-- A round that does not end takes one of the messages that wait. A buffer that is meant
for a byte string is full before a message behind that string is taken. -/
theorem fillRound (reading : Reading q upTo string p m r read) :
    (∃ r', Reading q upTo string p m r' read ∧ r'.Spent upTo m ∧
      ∀ (σ : Type) (others : σ) (turns : List (Turn σ)),
        Reader.fillRound upTo ⟨r, ⟨m, others⟩, turns⟩ = .ok (some ()) ⟨r', ⟨m, others⟩, turns⟩) ∨
    ∃ r' m' words, Reading q upTo string p m' r' (read ++ [words]) ∧
      (r'.stream.transport.waiting m').length + 1 = (r.stream.transport.waiting m).length ∧
      ∀ (σ : Type) (others : σ) (turns : List (Turn σ)),
        Reader.fillRound upTo ⟨r, ⟨m, others⟩, turns⟩ = .ok none ⟨r', ⟨m', others⟩, turns⟩ := by
  have drained := reading.drain
  obtain ⟨-, transport, -⟩ := Reader.drain_keeps r upTo
  obtain ⟨within, empty⟩ := Reader.drain_within reading.relaying.valid reading.within
  by_cases done : (r.drain upTo).filled.length = upTo ∨ (r.drain upTo).stream.closed = true
  · refine .inl ⟨r.drain upTo, drained, ⟨within, fun less => ⟨empty less, ?_⟩⟩, ?_⟩
    · exact .inl (done.resolve_left (Nat.ne_of_lt less))
    · exact fun σ others turns => Reader.fillRound_done _ turns done
  · rcases drained.relaying.pull with ⟨nothing, pulled⟩ | ⟨words, t, m', relaying, waiting, pulled⟩
    · refine .inl ⟨r.drain upTo, drained, ⟨within, fun less => ⟨empty less, .inr nothing⟩⟩, ?_⟩
      exact fun σ others turns => Reader.fillRound_pull done (pulled σ others turns)
    · let s : Stream := { (r.drain upTo).stream with transport := t }
      have less : (r.drain upTo).filled.length < upTo :=
        Nat.lt_of_le_of_ne within fun full => done (.inl full)
      refine .inr ⟨{ r.drain upTo with stream := (s.absorb words).2 }, m', words,
        ⟨relaying, within, fun count mem => ?_⟩, ?_, ?_⟩
      · obtain ⟨expected, started⟩ := drained.meant count mem
        have held := empty less
        have between : (decode 0 read).2 = s.bytesLeft := congrArg Prod.snd drained.relaying.held
        have comes : s.bytesLeft ≠ 0 := by
          intro none
          have zero : (r.drain upTo).stream.bytesLeft = 0 := none
          rw [Reader.expected, held, zero] at expected
          exact Nat.ne_of_lt less expected
        have scanned : scan s.bytesLeft words = portion s.bytesLeft words := by
          rw [scan, if_neg comes]
        have rest := length_portion s.bytesLeft words
        have backlog : s.backlog = [] := held
        constructor
        · unfold Reader.expected at expected ⊢
          rw [held, List.length_nil, Nat.add_zero] at expected
          simp only [bytesLeft_absorb, backlog_absorb (s := s) drained.relaying.valid, scanned,
            backlog, List.nil_append]
          rw [Nat.add_assoc, rest]
          exact expected
        · rw [starts_append, between, starts, starts, isStart, beq_eq_false_iff_ne.mpr comes]
          exact started
      · rw [← transport]
        exact (congrArg List.length waiting).symm
      · exact fun σ others turns => Reader.fillRound_pull done (pulled σ others turns)

/-- There are at most as many rounds that go on as messages wait. -/
theorem repeat_fillRound (reading : Reading q upTo string p m r read) {count : Nat}
    (waiting : (r.stream.transport.waiting m).length = count) :
    ∃ r' m' read', Reading q upTo string p m' r' read' ∧ r'.Spent upTo m' ∧
      ∀ bound, count < bound → ∀ (σ : Type) (others : σ) (turns : List (Turn σ)),
        Task.repeatWithin bound (Reader.fillRound upTo) ⟨r, ⟨m, others⟩, turns⟩ =
          .ok () ⟨r', ⟨m', others⟩, turns⟩ := by
  induction count generalizing m r read with
  | zero =>
      rcases reading.fillRound with ⟨r', reading', spent, ran⟩ | ⟨r', m', words, -, fewer, -⟩
      · refine ⟨r', m, read, reading', spent, fun bound enough σ others turns => ?_⟩
        obtain ⟨bound, rfl⟩ := Nat.exists_eq_succ_of_ne_zero (Nat.ne_of_gt enough)
        exact Task.repeatWithin_some bound (ran σ others turns)
      · omega
  | succ count ih =>
      rcases reading.fillRound with ⟨r', reading', spent, ran⟩ | ⟨r', m', words, reading', fewer, ran⟩
      · refine ⟨r', m, read, reading', spent, fun bound enough σ others turns => ?_⟩
        obtain ⟨bound, rfl⟩ := Nat.exists_eq_succ_of_ne_zero (Nat.ne_zero_of_lt enough)
        exact Task.repeatWithin_some bound (ran σ others turns)
      · obtain ⟨r'', m'', read', reading'', spent, rest⟩ := ih reading' (by omega)
        refine ⟨r'', m'', read', reading'', spent, fun bound enough σ others turns => ?_⟩
        obtain ⟨bound, rfl⟩ := Nat.exists_eq_succ_of_ne_zero (Nat.ne_zero_of_lt enough)
        rw [Task.repeatWithin_none bound (ran σ others turns)]
        exact rest bound (Nat.lt_of_succ_lt_succ enough) σ others turns

/-- Filling never waits. -/
theorem fill (reading : Reading q upTo string p m r read) :
    ∃ r' m' read', Reading q upTo string p m' r' read' ∧ r'.Spent upTo m' ∧
      ∀ (σ : Type) (others : σ) (turns : List (Turn σ)),
        Reader.fill upTo ⟨r, ⟨m, others⟩, turns⟩ = .ok () ⟨r', ⟨m', others⟩, turns⟩ := by
  obtain ⟨r', m', read', reading', spent, ran⟩ := reading.repeat_fillRound rfl
  refine ⟨r', m', read', reading', spent, fun σ others turns => ?_⟩
  have room : (r.stream.transport.waiting m).length ≤ r.stream.transport.backlogLimit m :=
    reading.relaying.room
  unfold Reader.fill
  rw [Task.get_bind]
  apply ran
  calc (r.stream.transport.waiting m).length
      < r.stream.transport.backlogLimit m + 2 := by omega
    _ ≤ (turns.length + 1) * (r.stream.transport.backlogLimit m + 2) :=
        Nat.le_mul_of_pos_left _ (Nat.succ_pos _)

/-- What the speaker does while the listener waits changes nothing of what was read. -/
theorem does {scene scene' : Scene Party}
    (reading : Reading q upTo string scene.others scene.machine r read)
    (does : Relation.ReflTransGen (Does .speaker) scene scene') :
    Reading q upTo string scene'.others scene'.machine r read ∧
      scene.others.Since scene'.others := by
  have related : Related .speaker read scene.machine scene.others (q.into r) := reading.relaying
  obtain ⟨related', since⟩ := doing_related related does
  exact ⟨⟨related', reading.within, reading.meant⟩, since⟩

end Reading

/-! ### Waiting for a full buffer -/

/-- A turn that ends nothing, and in which the speaker does whatever belongs to its part. -/
def Talking (turn : Turn Party) : Prop :=
  turn.Takes (Relation.ReflTransGen (Does .speaker))

/-- The listener reads, and the speaker forgot nothing since a given moment. -/
def Hearing (q : Party) (upTo : Nat) (string : Option Nat) (p : Party) (r : Reader)
    (scene : Scene Party) : Prop :=
  (∃ read, Reading q upTo string scene.others scene.machine r read) ∧ p.Since scene.others

theorem Hearing.does {scene scene' : Scene Party} (hearing : Hearing q upTo string p r scene)
    (does : Relation.ReflTransGen (Does .speaker) scene scene') :
    Hearing q upTo string p r scene' := by
  obtain ⟨⟨read, reading⟩, since⟩ := hearing
  obtain ⟨reading', since'⟩ := reading.does does
  exact ⟨⟨read, reading'⟩, since.trans since'⟩

/-- A wait for a full buffer ends when it is full, or when nothing is held and the stream
is closed, or when nothing is held or waits and no turn is left. -/
theorem ends_receiveAll {now : Moment Reader Party}
    (amid : Task.Amid (Relation.ReflTransGen (Does .speaker)) (Hearing q upTo string p) now) :
    Task.Ends (Reader.receiveAll upTo now)
      (fun _ now => Hearing q upTo string p now.self now.scene ∧ now.self.filled.length = upTo)
      fun stop now => Hearing q upTo string p now.self now.scene ∧
        now.self.filled.length < upTo ∧ now.self.stream.backlog = [] ∧
        match stop with
        | .failed e => e = .closed ∧ now.self.stream.closed = true
        | .halted h => h = .stalled ∧ now.turns = [] ∧ now.self.stream.closed = false ∧
            now.self.stream.transport.waiting now.scene.machine = [] := by
  unfold Reader.receiveAll
  refine Task.ends_await_all (fun r scene => Hearing q upTo string p r scene ∧
    r.filled.length < upTo ∧ r.stream.backlog = [] ∧ r.stream.closed = false ∧
      r.stream.transport.waiting scene.machine = []) ?_ ?_ ?_ amid
  · rintro ⟨r, ⟨m, others⟩, turns⟩ ⟨⟨⟨read, reading⟩, since⟩, -⟩
    obtain ⟨r', m', read', reading', spent, ran⟩ := reading.fill
    have hearing : Hearing q upTo string p r' ⟨m', others⟩ := ⟨⟨read', reading'⟩, since⟩
    rw [Task.bind_ok (ran _ _ _), Task.self_bind]
    by_cases full : r'.filled.length = upTo
    · rw [if_pos full]
      exact ⟨hearing, full⟩
    · have less := Nat.lt_of_le_of_ne spent.within full
      obtain ⟨held, reason⟩ := spent.spent less
      have none : r'.stream.buffered = 0 := by
        rw [← length_backlog, held]
        rfl
      rw [if_neg full]
      cases closed : r'.stream.closed with
      | true =>
          rw [if_pos ⟨rfl, none⟩]
          exact ⟨hearing, less, held, rfl, closed⟩
      | false =>
          rw [if_neg fun both => Bool.false_ne_true both.1]
          rw [closed] at reason
          exact ⟨⟨hearing, less, held, closed, reason.resolve_left Bool.false_ne_true⟩, rfl⟩
  · rintro r scene scene' ⟨hearing, -⟩ does
    exact hearing.does does
  · rintro now turns ⟨hearing, less, held, isOpen, none⟩
    exact ⟨hearing, less, held, rfl, turns, isOpen, none⟩

end Stream

end Conduit

/-
# A receiving end whose peer may send anything

`Receptive m t` says that nothing stands in the way of receiving over a transport: no fault is
planned for the endpoint and there are slots for the capabilities that wait, or the panes lie
in memory. It says nothing of the words that wait, so a peer that follows no convention cannot
break it. A receiving end then takes the messages that wait, one after the other
(`Receptive.pull`), and a buffer is filled with what is held and what these messages hold, as
far as it goes and no further (`Receptive.fill`).
-/

import Conduit.Proofs.Call.Duplex
import Conduit.Proofs.Slots.Panes
import Conduit.Proofs.Stream.Filling
import Conduit.Proofs.Stream.Meaning

namespace Conduit

/-- How many letters bring a capability. -/
def Letter.bringing (queue : List Letter) : Nat := queue.countP fun letter => letter.cap.isSome

theorem Letter.bringing_cons (letter : Letter) (queue : List Letter) :
    bringing (letter :: queue) = bringing queue + letter.cap.isSome.toNat := by
  unfold bringing
  rw [List.countP_cons]
  cases letter.cap <;> rfl

/-- Nothing stands in the way of receiving. -/
inductive Transport.Receptive (m : Machine) : Transport → Prop where
  | endpoint {ep : Endpoint} (recv : m.Spares ep.home .recv)
      (alloc : m.Spares ep.home .allocSlot)
      (slots : m.Room (Letter.bringing (m.kernel.waiting ep.home)))
      (bounded : (m.kernel.waiting ep.home).length ≤ m.kernel.depth) :
      Receptive m (.endpoint ep)
  | slots {chan : SlotChannel} (fitted : chan.Fitted m.memory) : Receptive m (.slots chan)

namespace Machine

variable {m : Machine}

/-- A slot for a capability is handed out, if there is a capability. -/
def handed (m : Machine) (carries : Bool) : Machine :=
  if carries then
    { m with kernel := { m.kernel with
        nextSlot := m.kernel.nextSlot + 1, recvSlots := m.kernel.recvSlots + 1 } }
  else m

@[simp] theorem faults_handed (carries : Bool) : (m.handed carries).faults = m.faults := by
  cases carries <;> rfl

@[simp] theorem depth_handed (carries : Bool) :
    (m.handed carries).kernel.depth = m.kernel.depth := by
  cases carries <;> rfl

@[simp] theorem waiting_handed (carries : Bool) (cap : Cap) :
    (m.handed carries).kernel.waiting cap = m.kernel.waiting cap := by
  cases carries <;> rfl

/-- The slots that are left. -/
theorem Room.handed {n : Nat} {carries : Bool} (room : m.Room (n + carries.toNat)) :
    (m.handed carries).Room n := by
  cases carries with
  | false => exact room
  | true =>
      have count : (m.kernel.nextSlot + 1).toNat = m.kernel.nextSlot.toNat + 1 :=
        toNat_nextSlot_succ (room.mono (Nat.le_add_left 1 n))
      change (m.kernel.nextSlot + 1).toNat + n ≤ _
      rw [count, Nat.add_assoc, Nat.add_comm 1 n]
      exact room

end Machine

namespace Endpoint

variable {ep : Endpoint} {m : Machine}

/-- A slot is handed out while there is one. -/
theorem allocRecvSlot_room (spared : m.Spares ep.home .allocSlot) (room : m.Room 1) :
    ep.allocRecvSlot m = (.ok (), m.handed true) := by
  have spared : m.nextFault (.endpoint ep.home .allocSlot) = (none, m) := spared
  simp only [allocRecvSlot, unlessFault, spared, Machine.onKernel_, Machine.onKernel,
    Kernel.allocRecvSlot, Kernel.allocSlot, if_neg room.slot_ne]
  rfl

theorem canRecv_waiting (ep : Endpoint) (m : Machine) :
    ep.canRecv m = !(m.kernel.waiting ep.home).isEmpty := by
  unfold canRecv Kernel.pending
  cases m.kernel.waiting ep.home <;> rfl

/-- The letter at the front is fetched, with a slot for the capability that it brings. -/
theorem receive_front (recv : m.Spares ep.home .recv) (alloc : m.Spares ep.home .allocSlot)
    {letter : Letter} {later : List Letter} (queue : m.kernel.waiting ep.home = letter :: later)
    (room : m.Room letter.cap.isSome.toNat) {σ : Type} (others : σ) (turns : List (Turn σ)) :
    Transport.receive ⟨.endpoint ep, ⟨m, others⟩, turns⟩ =
      .ok (some ⟨letter.words.toList, letter.cap⟩)
        ⟨.endpoint ep, ⟨(m.fetched ep.home later).handed letter.cap.isSome, others⟩, turns⟩ := by
  have received := recv_cons recv (Kernel.get?_of_waiting queue)
  have answered : (Task.awaitAnswer (Task.asking ep.recv) : Task Transport σ _)
      ⟨.endpoint ep, ⟨m, others⟩, turns⟩ =
        .ok (.ok letter) ⟨.endpoint ep, ⟨m.fetched ep.home later, others⟩, turns⟩ := by
    refine Task.awaitAnswer_ok ?_ (by simp)
    rw [← bind_pure (Task.asking ep.recv), Task.asking_bind, received]
    rfl
  simp only [Transport.receive, Task.self_bind]
  rw [Task.bind_ok answered]
  cases carries : letter.cap.isSome with
  | true =>
      rw [carries] at room
      have one : (m.fetched ep.home later).Room 1 := room
      have allocated := allocRecvSlot_room (Machine.spares_fetched.mpr alloc) one
      simp only [carries, if_true, Task.request, bind_assoc, Task.asking_bind, allocated]
      rfl
  | false =>
      simp only [carries, Bool.false_eq_true, if_false]
      rfl

end Endpoint

namespace Transport.Receptive

variable {m : Machine} {t : Transport}

/-- Everything that waits fits into the width of a message. -/
theorem full (receptive : Receptive m t) : ∀ words ∈ t.waiting m, words.length = t.width := by
  intro words mem
  cases receptive with
  | endpoint recv alloc slots bounded =>
      obtain ⟨letter, -, rfl⟩ := List.mem_map.mp mem
      exact letter.words.length_toList
  | slots fitted =>
      obtain ⟨k, -, rfl⟩ := List.mem_map.mp mem
      simp only [Lane.payload, List.length_map, List.length_range]
      rfl

theorem one_le_width (receptive : Receptive m t) : 1 ≤ t.width := by
  cases receptive with
  | endpoint => exact (by decide : 1 ≤ Letter.width)
  | @slots chan fitted =>
      have room : 2 ≤ chan.slotWords := fitted.receives.room
      change 1 ≤ chan.slotWords - 1
      omega

/-- No more messages wait than may. -/
theorem room (receptive : Receptive m t) : (t.waiting m).length ≤ t.backlogLimit m := by
  cases receptive with
  | endpoint recv alloc slots bounded =>
      simp only [Transport.waiting, List.length_map]
      exact bounded
  | slots fitted =>
      simp only [Transport.waiting, Lane.waiting, List.length_map]
      refine Nat.le_trans (List.takeWhile_sublist _).length_le ?_
      rw [List.length_map, List.length_range]
      rfl

theorem canReceive (receptive : Receptive m t) {σ : Type} (others : σ) (turns : List (Turn σ)) :
    Transport.canReceive ⟨t, ⟨m, others⟩, turns⟩ =
      .ok (!(t.waiting m).isEmpty) ⟨t, ⟨m, others⟩, turns⟩ := by
  cases receptive with
  | @endpoint ep recv alloc slots bounded =>
      simp only [Transport.canReceive, Task.self_bind, Task.machine_bind, Endpoint.canRecv_waiting,
        Transport.waiting, List.isEmpty_map]
      rfl
  | @slots chan fitted =>
      simp only [Transport.canReceive, Task.self_bind, Task.machine_bind, fitted.canReceive_eq]
      by_cases sent : chan.incoming.flag m.memory chan.recvIndex = .sent
      · simp only [Transport.waiting, Lane.waiting_cons fitted.receives fitted.recvIndex sent, sent]
        rfl
      · simp only [Transport.waiting, Lane.waiting_nil fitted.recvIndex sent, sent]
        rfl

/-- The first of the messages that wait is received. -/
theorem receive (receptive : Receptive m t) {words : List UInt64} {rest : List (List UInt64)}
    (waits : t.waiting m = words :: rest) :
    ∃ t' m', Receptive m' t' ∧ t'.waiting m' = rest ∧ t'.width = t.width ∧
      t'.backlogLimit m' = t.backlogLimit m ∧
      ∀ (σ : Type) (others : σ) (turns : List (Turn σ)), ∃ cap,
        Transport.receive ⟨t, ⟨m, others⟩, turns⟩ =
          .ok (some ⟨words, cap⟩) ⟨t', ⟨m', others⟩, turns⟩ := by
  cases receptive with
  | @endpoint ep recv alloc slots bounded =>
      obtain ⟨letter, later, queue, rfl, rfl⟩ := List.map_eq_cons_iff.mp waits
      rw [queue, Letter.bringing_cons] at slots
      rw [queue, List.length_cons] at bounded
      let m' := (m.fetched ep.home later).handed letter.cap.isSome
      have plans : m'.faults = m.faults := Machine.faults_handed _
      have left : m'.kernel.waiting ep.home = later := by
        rw [Machine.waiting_handed, Kernel.waiting, Machine.get?_fetched, if_pos rfl]
        rfl
      have held : (m.fetched ep.home later).Room
          (Letter.bringing later + letter.cap.isSome.toNat) := slots
      have receptive' : Receptive m' (.endpoint ep) :=
        .endpoint ((Machine.spares_congr plans).mpr recv) ((Machine.spares_congr plans).mpr alloc)
          (left.symm ▸ held.handed) (left.symm ▸ (Machine.depth_handed _).symm ▸
            Nat.le_of_succ_le bounded)
      refine ⟨.endpoint ep, m', receptive', congrArg _ left, rfl, Machine.depth_handed _,
        fun σ others turns => ⟨letter.cap, ?_⟩⟩
      exact Endpoint.receive_front recv alloc queue (slots.mono (Nat.le_add_left _ _)) others turns
  | @slots chan fitted =>
      have sent : chan.incoming.flag m.memory chan.recvIndex = .sent := by
        by_contra vain
        rw [Transport.waiting, Lane.waiting_nil fitted.recvIndex vain] at waits
        cases waits
      rw [Transport.waiting, Lane.waiting_cons fitted.receives fitted.recvIndex sent] at waits
      injection waits with first later
      have width : (chan.incoming.payload m.memory chan.recvIndex).length = chan.payloadWords := by
        simp only [Lane.payload, List.length_map, List.length_range]
        rfl
      refine ⟨.slots (chan.afterReceive m).1, (chan.afterReceive m).2, .slots fitted.afterReceive,
        later, rfl, rfl, fun σ others turns => ⟨none, ?_⟩⟩
      simp only [Transport.receive, Task.self_bind, Task.machine_bind, fitted.receive_eq,
        if_pos sent, ← width, List.take_length, first]
      rfl

end Transport.Receptive

namespace Stream

variable {m : Machine} {s : Stream}

/-- What a receiving end holds and knows. -/
def intake (s : Stream) : Intake := ⟨s.backlog, s.bytesLeft, s.closed⟩

/-- A message that is absorbed is taken in. -/
theorem intake_absorb (valid : s.ring.Valid) (isOpen : s.closed = false) (words : List UInt64) :
    (s.absorb words).2.intake = s.intake.next words := by
  have absorbed : (s.absorb words).2.intake = ⟨s.backlog ++ (scan s.bytesLeft words).1,
      (scan s.bytesLeft words).2, s.closed || isClose s.bytesLeft words⟩ := by
    rw [intake, backlog_absorb valid, bytesLeft_absorb, closed_absorb]
    rfl
  rw [absorbed]
  cases close : isClose s.bytesLeft words with
  | true =>
      have none : scan s.bytesLeft words = ([], s.bytesLeft) := by
        simp only [isClose, Bool.and_eq_true, beq_iff_eq] at close
        rw [scan, if_pos close.1, if_pos close.2, close.1]
      rw [Intake.next_close isOpen close, none, List.append_nil, Bool.or_true]
      rfl
  | false =>
      rw [Intake.next_scan isOpen close, Bool.or_false]
      rfl

/-- A message is taken from the transport and absorbed, unless none waits. -/
theorem pull_receptive (receptive : s.transport.Receptive m) :
    (s.transport.waiting m = [] ∧ ∀ (σ : Type) (others : σ) (turns : List (Turn σ)),
      Stream.pull ⟨s, ⟨m, others⟩, turns⟩ = .ok none ⟨s, ⟨m, others⟩, turns⟩) ∨
    ∃ words t m', s.transport.waiting m = words :: t.waiting m' ∧ t.Receptive m' ∧
      t.width = s.transport.width ∧ t.backlogLimit m' = s.transport.backlogLimit m ∧
      ∀ (σ : Type) (others : σ) (turns : List (Turn σ)),
        Stream.pull ⟨s, ⟨m, others⟩, turns⟩ =
          .ok (some (({ s with transport := t } : Stream).absorb words).1)
            ⟨(({ s with transport := t } : Stream).absorb words).2, ⟨m', others⟩, turns⟩ := by
  have can (σ : Type) (others : σ) (turns : List (Turn σ)) :
      onTransport Transport.canReceive ⟨s, ⟨m, others⟩, turns⟩ =
        .ok (!(s.transport.waiting m).isEmpty) ⟨s, ⟨m, others⟩, turns⟩ :=
    onTransport_ok (receptive.canReceive others turns)
  cases waits : s.transport.waiting m with
  | nil =>
      refine .inl ⟨rfl, fun σ others turns => ?_⟩
      unfold Stream.pull
      rw [Task.bind_ok (can σ others turns), waits]
      rfl
  | cons words rest =>
      obtain ⟨t, m', receptive', rfl, width, limit, received⟩ := receptive.receive waits
      refine .inr ⟨words, t, m', rfl, receptive', width, limit, fun σ others turns => ?_⟩
      obtain ⟨cap, received⟩ := received σ others turns
      have taken : onTransport Transport.receive ⟨s, ⟨m, others⟩, turns⟩ =
          .ok (some ⟨words, cap⟩) ⟨{ s with transport := t }, ⟨m', others⟩, turns⟩ :=
        onTransport_ok received
      unfold Stream.pull
      rw [Task.bind_ok (can σ others turns), waits]
      exact (Task.bind_ok taken).trans rfl

/-! ### Filling a buffer -/

theorem storage_take (s : Stream) (payload : List UInt64) :
    (s.take payload).ring.storage.size = s.ring.storage.size := by
  simp only [take, stash]
  split
  · exact Ring.size_fill _ _ _
  · rfl

/-- The ring keeps its length. -/
theorem storage_absorb (s : Stream) (words : List UInt64) :
    (s.absorb words).2.ring.storage.size = s.ring.storage.size := by
  rcases s.absorb_cases words with ⟨after, -⟩ | ⟨left, payload, after, -⟩
  · rw [after]
  · rw [after, storage_take]

theorem storage_drainWithin (bound limit : Nat) (s : Stream) :
    (drainWithin bound limit s).2.ring.storage.size = s.ring.storage.size := by
  induction bound generalizing s limit with
  | zero => rfl
  | succ bound ih =>
      simp only [drainWithin]
      split
      · rfl
      · rw [ih]
        exact Ring.size_fill _ _ _

/-- A buffer that is being filled: these of the messages that waited at first were taken, each
of them when the buffer was not full, nothing was held and the end had not been announced. -/
structure Fills (m₀ : Machine) (s₀ : Stream) (upTo : Nat) (m : Machine) (r : Reader)
    (took : List (List UInt64)) : Prop where
  receptive : r.stream.transport.Receptive m
  valid : r.stream.ring.Valid
  length : r.stream.ring.storage.size = s₀.ring.storage.size
  within : r.filled.length ≤ upTo
  waits : s₀.transport.waiting m₀ = took ++ r.stream.transport.waiting m
  width : r.stream.transport.width = s₀.transport.width
  limit : r.stream.transport.backlogLimit m = s₀.transport.backlogLimit m₀
  holds : s₀.intake.all took =
    ⟨r.filled ++ r.stream.backlog, r.stream.bytesLeft, r.stream.closed⟩
  needed : ∀ before words, took = before ++ [words] →
    (s₀.intake.all before).bytes.length < upTo ∧ (s₀.intake.all before).ended = false

variable {m₀ : Machine} {s₀ : Stream} {upTo : Nat} {r : Reader} {took : List (List UInt64)}

/-- Before anything is taken. -/
theorem Fills.start (receptive : s₀.transport.Receptive m₀) (valid : s₀.ring.Valid) (upTo : Nat) :
    Fills m₀ s₀ upTo m₀ { stream := s₀ } [] where
  receptive := receptive
  valid := valid
  length := rfl
  within := Nat.zero_le _
  waits := rfl
  width := rfl
  limit := rfl
  holds := rfl
  needed := fun before words none => by
    have lengths := congrArg List.length none
    rw [List.length_append] at lengths
    cases lengths

namespace Fills

theorem drain (fills : Fills m₀ s₀ upTo m r took) : Fills m₀ s₀ upTo m (r.drain upTo) took := by
  obtain ⟨left, transport, closed⟩ := Reader.drain_keeps r upTo
  obtain ⟨filled, backlog⟩ := Reader.drain_eq fills.valid upTo
  have valid : (r.drain upTo).stream.ring.Valid :=
    valid_drainWithin fills.valid (upTo - r.filled.length + 1) (upTo - r.filled.length)
  have length : (r.drain upTo).stream.ring.storage.size = r.stream.ring.storage.size :=
    storage_drainWithin (upTo - r.filled.length + 1) (upTo - r.filled.length) r.stream
  have within := (Reader.drain_within fills.valid fills.within).1
  refine ⟨transport ▸ fills.receptive, valid, length.trans fills.length, within, ?_, ?_, ?_, ?_,
    fills.needed⟩
  · rw [transport]
    exact fills.waits
  · rw [transport]
    exact fills.width
  · rw [transport]
    exact fills.limit
  · rw [fills.holds, filled, backlog, left, closed, List.append_assoc, List.take_append_drop]

/-- One more message is taken, when the buffer has room and nothing is held. -/
theorem absorb (fills : Fills m₀ s₀ upTo m r took) (less : r.filled.length < upTo)
    (empty : r.stream.backlog = []) (isOpen : r.stream.closed = false) {words : List UInt64}
    {t : Transport} {m' : Machine} (receptive : t.Receptive m')
    (waits : r.stream.transport.waiting m = words :: t.waiting m')
    (width : t.width = r.stream.transport.width)
    (limit : t.backlogLimit m' = r.stream.transport.backlogLimit m) :
    Fills m₀ s₀ upTo m' ⟨(({ r.stream with transport := t } : Stream).absorb words).2, r.filled⟩
      (took ++ [words]) := by
  let s : Stream := { r.stream with transport := t }
  have valid : s.ring.Valid := fills.valid
  have same : (s.absorb words).2.transport = t := transport_absorb words
  have before : s₀.intake.all took = ⟨r.filled, s.bytesLeft, false⟩ := by
    rw [fills.holds, empty, List.append_nil, isOpen]
  have absorbed : (s.absorb words).2.intake = s.intake.next words :=
    intake_absorb valid isOpen words
  have alone : s.intake = ⟨[], s.bytesLeft, false⟩ := by
    rw [intake, show s.backlog = [] from empty, show s.closed = false from isOpen]
  refine ⟨same.symm ▸ receptive, valid_absorb valid words,
    (storage_absorb s words).trans fills.length, Nat.le_of_lt less, ?_, ?_, ?_, ?_, ?_⟩
  · rw [same, fills.waits, waits, List.append_assoc, List.singleton_append]
  · rw [same, width]
    exact fills.width
  · rw [same, limit]
    exact fills.limit
  · rw [Intake.all_append, before]
    change (⟨r.filled, s.bytesLeft, false⟩ : Intake).next words = _
    rw [Intake.next_behind, ← alone, ← absorbed]
    rfl
  · intro before' words' same
    obtain ⟨rfl, -⟩ := List.append_inj' same rfl
    rw [before]
    exact ⟨less, rfl⟩

/-- A round that does not end takes one of the messages that wait. -/
theorem fillRound (fills : Fills m₀ s₀ upTo m r took) :
    (∃ r', Fills m₀ s₀ upTo m r' took ∧ r'.Spent upTo m ∧
      ∀ (σ : Type) (others : σ) (turns : List (Turn σ)),
        Reader.fillRound upTo ⟨r, ⟨m, others⟩, turns⟩ = .ok (some ()) ⟨r', ⟨m, others⟩, turns⟩) ∨
    ∃ r' m' words, Fills m₀ s₀ upTo m' r' (took ++ [words]) ∧
      (r'.stream.transport.waiting m').length < (r.stream.transport.waiting m).length ∧
      ∀ (σ : Type) (others : σ) (turns : List (Turn σ)),
        Reader.fillRound upTo ⟨r, ⟨m, others⟩, turns⟩ = .ok none ⟨r', ⟨m', others⟩, turns⟩ := by
  have drained := fills.drain
  obtain ⟨-, transport, -⟩ := Reader.drain_keeps r upTo
  obtain ⟨within, empty⟩ := Reader.drain_within fills.valid fills.within
  by_cases done : (r.drain upTo).filled.length = upTo ∨ (r.drain upTo).stream.closed = true
  · refine .inl ⟨r.drain upTo, drained, ⟨within, fun less => ⟨empty less, ?_⟩⟩, ?_⟩
    · exact .inl (done.resolve_left (Nat.ne_of_lt less))
    · exact fun σ others turns => Reader.fillRound_done _ turns done
  have less : (r.drain upTo).filled.length < upTo :=
    Nat.lt_of_le_of_ne within fun full => done (.inl full)
  have isOpen : (r.drain upTo).stream.closed = false :=
    Bool.eq_false_of_not_eq_true fun closed => done (.inr closed)
  rcases pull_receptive drained.receptive with
    ⟨nothing, pulled⟩ | ⟨words, t, m', waits, receptive, width, limit, pulled⟩
  · refine .inl ⟨r.drain upTo, drained, ⟨within, fun less => ⟨empty less, .inr nothing⟩⟩, ?_⟩
    exact fun σ others turns => Reader.fillRound_pull done (pulled σ others turns)
  · have fewer : (t.waiting m').length < (r.stream.transport.waiting m).length := by
      rw [← transport, waits]
      exact Nat.lt_succ_self _
    refine .inr ⟨_, m', words, drained.absorb less (empty less) isOpen receptive waits width limit,
      ?_, fun σ others turns => Reader.fillRound_pull done (pulled σ others turns)⟩
    rw [transport_absorb]
    exact fewer

/-- There are at most as many rounds that go on as messages wait. -/
theorem repeat_fillRound (fills : Fills m₀ s₀ upTo m r took) {count : Nat}
    (waiting : (r.stream.transport.waiting m).length ≤ count) :
    ∃ r' m' took', Fills m₀ s₀ upTo m' r' took' ∧ r'.Spent upTo m' ∧
      ∀ bound, count < bound → ∀ (σ : Type) (others : σ) (turns : List (Turn σ)),
        Task.repeatWithin bound (Reader.fillRound upTo) ⟨r, ⟨m, others⟩, turns⟩ =
          .ok () ⟨r', ⟨m', others⟩, turns⟩ := by
  induction count generalizing m r took with
  | zero =>
      rcases fills.fillRound with ⟨r', fills', spent, ran⟩ | ⟨r', m', words, -, fewer, -⟩
      · refine ⟨r', m, took, fills', spent, fun bound enough σ others turns => ?_⟩
        obtain ⟨bound, rfl⟩ := Nat.exists_eq_succ_of_ne_zero (Nat.ne_of_gt enough)
        exact Task.repeatWithin_some bound (ran σ others turns)
      · omega
  | succ count ih =>
      rcases fills.fillRound with ⟨r', fills', spent, ran⟩ | ⟨r', m', words, fills', fewer, ran⟩
      · refine ⟨r', m, took, fills', spent, fun bound enough σ others turns => ?_⟩
        obtain ⟨bound, rfl⟩ := Nat.exists_eq_succ_of_ne_zero (Nat.ne_zero_of_lt enough)
        exact Task.repeatWithin_some bound (ran σ others turns)
      · obtain ⟨r'', m'', took', fills'', spent, rest⟩ := ih fills' (by omega)
        refine ⟨r'', m'', took', fills'', spent, fun bound enough σ others turns => ?_⟩
        obtain ⟨bound, rfl⟩ := Nat.exists_eq_succ_of_ne_zero (Nat.ne_zero_of_lt enough)
        rw [Task.repeatWithin_none bound (ran σ others turns)]
        exact rest bound (Nat.lt_of_succ_lt_succ enough) σ others turns

/-- Filling never waits, and ends when the buffer is full or nothing is left to fill it. -/
theorem fill (receptive : s₀.transport.Receptive m₀) (valid : s₀.ring.Valid) (upTo : Nat) :
    ∃ r m took, Fills m₀ s₀ upTo m r took ∧ r.Spent upTo m ∧
      ∀ (σ : Type) (others : σ) (turns : List (Turn σ)),
        Reader.fill upTo ⟨{ stream := s₀ }, ⟨m₀, others⟩, turns⟩ =
          .ok () ⟨r, ⟨m, others⟩, turns⟩ := by
  obtain ⟨r, m, took, fills, spent, ran⟩ :=
    (Fills.start receptive valid upTo).repeat_fillRound receptive.room
  refine ⟨r, m, took, fills, spent, fun σ others turns => ?_⟩
  unfold Reader.fill
  rw [Task.get_bind]
  apply ran
  calc s₀.transport.backlogLimit m₀
      < s₀.transport.backlogLimit m₀ + 2 := by omega
    _ ≤ (turns.length + 1) * (s₀.transport.backlogLimit m₀ + 2) :=
        Nat.le_mul_of_pos_left _ (Nat.succ_pos _)

/-- What reached the buffer is what was held and what all the messages hold that waited, as
far as the buffer goes. -/
theorem filled_eq (fills : Fills m₀ s₀ upTo m r took) (spent : r.Spent upTo m) :
    r.filled = (s₀.intake.all (s₀.transport.waiting m₀)).bytes.take upTo := by
  have begins : r.filled <+: (s₀.intake.all (s₀.transport.waiting m₀)).bytes := by
    rw [fills.waits, Intake.all_append]
    refine List.IsPrefix.trans ?_ (Intake.bytes_prefix _ _)
    rw [fills.holds]
    exact List.prefix_append _ _
  rcases Nat.eq_or_lt_of_le fills.within with full | less
  · rw [← full]
    exact List.prefix_iff_eq_take.mp begins
  · obtain ⟨empty, reason⟩ := spent.spent less
    have rest : s₀.intake.all (s₀.transport.waiting m₀) =
        (s₀.intake.all took).all (r.stream.transport.waiting m) := by
      rw [fills.waits, Intake.all_append]
    have whole : (s₀.intake.all (s₀.transport.waiting m₀)).bytes = r.filled := by
      rcases reason with closed | none
      · have ended : (s₀.intake.all took).ended = true := by
          rw [fills.holds]
          exact closed
        rw [rest, Intake.all_ended ended, fills.holds, empty, List.append_nil]
      · rw [rest, none, fills.holds, empty, List.append_nil]
        rfl
    rw [whole, List.take_of_length_le (Nat.le_of_lt less)]

end Fills

end Stream

end Conduit

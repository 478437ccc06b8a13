/-
# A channel without faults

`Duplex m a b atA atB` says what waits at the two ends of a capability channel on which
no fault is planned. An operation of an endpoint has one outcome then, and it is known
beforehand: a letter is sent if the queue has room, and the first one is received unless
it carries a capability and no slot is left for the next one. None of them waits, so the
laws hold whoever else is there and whatever turns are to come.
-/

import Conduit.Proofs.Call.Transfer
import Conduit.Proofs.Kernel.Quiet
import Conduit.Proofs.Memory.Words

namespace Conduit

/-- The letters that wait at the two ends of a channel on which no fault is planned. -/
structure Duplex (m : Machine) (a b : Cap) (atA atB : List Letter) : Prop where
  apart : a ≠ b
  atA : m.kernel.queues.get? a = some atA
  atB : m.kernel.queues.get? b = some atB
  deep : 1 ≤ m.kernel.depth
  quiet : m.Quiet

/-- The end of a channel at one capability, ready to report the next message. -/
def Endpoint.joining (a b : Cap) : Endpoint := { home := a, peer := some b, armed := true }

namespace Duplex

variable {σ : Type} {m : Machine} {a b : Cap} {atA atB rest : List Letter} {ep : Endpoint}
  {letter : Letter} {message : Message} (others : σ) (turns : List (Turn σ))

theorem symm (duplex : Duplex m a b atA atB) : Duplex m b a atB atA :=
  ⟨duplex.apart.symm, duplex.atB, duplex.atA, duplex.deep, duplex.quiet⟩

/-- Only queues, depth and plans count. -/
theorem congr {m' : Machine} (duplex : Duplex m a b atA atB)
    (queues : m'.kernel.queues = m.kernel.queues) (depth : m'.kernel.depth = m.kernel.depth)
    (faults : m'.faults = m.faults) : Duplex m' a b atA atB where
  apart := duplex.apart
  atA := queues ▸ duplex.atA
  atB := queues ▸ duplex.atB
  deep := depth ▸ duplex.deep
  quiet site := faults ▸ duplex.quiet site

theorem posted (duplex : Duplex m a b atA atB) (letters : List Letter) (flags : SendFlags) :
    Duplex (m.posted b letters flags) a b atA letters where
  apart := duplex.apart
  atA := by rw [Machine.get?_posted, if_neg duplex.apart.symm, duplex.atA]
  atB := by rw [Machine.get?_posted, if_pos rfl]
  deep := duplex.deep
  quiet := duplex.quiet

theorem fetched (duplex : Duplex m a b atA atB) (letters : List Letter) :
    Duplex (m.fetched a letters) a b letters atB where
  apart := duplex.apart
  atA := by rw [Machine.get?_fetched, if_pos rfl]
  atB := by rw [Machine.get?_fetched, if_neg duplex.apart, duplex.atB]
  deep := duplex.deep
  quiet := duplex.quiet

theorem canRecv (duplex : Duplex m a b atA atB) (home : ep.home = a) :
    ep.canRecv m = !atA.isEmpty := Endpoint.canRecv_eq (home ▸ duplex.atA)

theorem canReceive (duplex : Duplex m a b atA atB) (home : ep.home = a) :
    Transport.canReceive ⟨.endpoint ep, ⟨m, others⟩, turns⟩ =
      .ok (!atA.isEmpty) ⟨.endpoint ep, ⟨m, others⟩, turns⟩ := by
  simp only [Transport.canReceive, Task.self_bind, Task.machine_bind, duplex.canRecv home]
  rfl

/-- A queue that is not full takes a message. -/
theorem send (duplex : Duplex m a b atA []) (peer : ep.peer = some b)
    (message : Message) (flags : SendFlags) :
    Transport.send message flags ⟨.endpoint ep, ⟨m, others⟩, turns⟩ =
      .ok () ⟨.endpoint ep, ⟨m.posted b [message.letter] flags, others⟩, turns⟩ := by
  have sent := Endpoint.send_space (duplex.quiet.spares ep.home .send) peer duplex.atB duplex.deep
    flags message.letter
  unfold Transport.send
  rw [Task.self_bind]
  apply Task.await_ok
  unfold Transport.offer
  rw [Task.self_bind]
  simp only [Task.asking_bind]
  rw [show (⟨Letter.fit message.words, message.cap⟩ : Letter) = message.letter from rfl, sent]
  rfl

/-- Nothing is received from an empty queue. -/
theorem receive_nil (duplex : Duplex m a b [] atB) (home : ep.home = a) :
    Transport.receive ⟨.endpoint ep, ⟨m, others⟩, turns⟩ =
      .ok none ⟨.endpoint ep, ⟨m, others⟩, turns⟩ := by
  have none := Endpoint.recv_nil (duplex.quiet.spares ep.home .recv) (home ▸ duplex.atA)
  have answered : (Task.awaitAnswer (Task.asking ep.recv) : Task Transport σ _)
      ⟨.endpoint ep, ⟨m, others⟩, turns⟩ =
        .ok (.error .noMessage) ⟨.endpoint ep, ⟨m, others⟩, turns⟩ := by
    refine Task.awaitAnswer_ok ?_ (by simp)
    rw [← bind_pure (Task.asking ep.recv), Task.asking_bind, none]
    rfl
  simp only [Transport.receive, Task.self_bind]
  rw [Task.bind_ok answered]
  rfl

/-- A slot for the next capability is handed out unless none is left. -/
theorem allocRecvSlot (duplex : Duplex m a b atA atB) :
    (∃ m', Duplex m' a b atA atB ∧ m.Spends m' 1 ∧
      ∀ ep : Endpoint, ep.allocRecvSlot m = (.ok (), m')) ∨
      ¬ m.Room 1 ∧ ∀ ep : Endpoint, ep.allocRecvSlot m = (.error .noSpace, m) := by
  unfold Endpoint.allocRecvSlot Endpoint.unlessFault
  simp only [duplex.quiet.nextFault, Machine.onKernel_, Machine.onKernel, Kernel.allocRecvSlot,
    Kernel.allocSlot]
  by_cases last : m.kernel.nextSlot = 0xffffffff
  · refine .inr ⟨fun room => room.slot_ne last, fun _ => ?_⟩
    simp only [if_pos last]
    rfl
  · refine .inl ⟨{ m with kernel := { m.kernel with
      nextSlot := m.kernel.nextSlot + 1, recvSlots := m.kernel.recvSlots + 1 } },
      duplex.congr rfl rfl rfl, ⟨rfl, rfl, ?_⟩, fun _ => ?_⟩
    · exact Nat.le_of_eq (Machine.toNat_nextSlot_succ (Machine.room_of_slot_ne last))
    · simp only [if_neg last]
      rfl

/-- The first letter is received. If no slot is left for the next capability, the letter
is lost. -/
theorem receive_cons (duplex : Duplex m a b (letter :: rest) atB) {slots : Nat}
    (costs : letter.cap.isSome → slots = 1) :
    ∃ m', Duplex m' a b rest atB ∧ m.Spends m' slots ∧
      ((∀ (ep : Endpoint) (σ : Type) (others : σ) (turns : List (Turn σ)), ep.home = a →
          Transport.receive ⟨.endpoint ep, ⟨m, others⟩, turns⟩ =
            .ok (some letter.message) ⟨.endpoint ep, ⟨m', others⟩, turns⟩) ∨
        ¬ m.Room slots ∧ ∃ e,
          ∀ (ep : Endpoint) (σ : Type) (others : σ) (turns : List (Turn σ)), ep.home = a →
            Transport.receive ⟨.endpoint ep, ⟨m, others⟩, turns⟩ =
              .error (.failed e) ⟨.endpoint ep, ⟨m', others⟩, turns⟩) := by
  have fetched := duplex.fetched rest
  have answered (ep : Endpoint) (σ : Type) (others : σ) (turns : List (Turn σ))
      (home : ep.home = a) : (Task.awaitAnswer (Task.asking ep.recv) : Task Transport σ _)
        ⟨.endpoint ep, ⟨m, others⟩, turns⟩ =
          .ok (.ok letter) ⟨.endpoint ep, ⟨m.fetched a rest, others⟩, turns⟩ := by
    have received := Endpoint.recv_cons (duplex.quiet.spares ep.home .recv) (home ▸ duplex.atA)
    rw [home] at received
    refine Task.awaitAnswer_ok ?_ (by simp)
    rw [← bind_pure (Task.asking ep.recv), Task.asking_bind, received]
    rfl
  by_cases carries : letter.cap.isSome = true
  · obtain rfl := costs carries
    rcases fetched.allocRecvSlot with ⟨m', duplex', spends, allocated⟩ | ⟨full, refused⟩
    · refine ⟨m', duplex', (Machine.spends_fetched.trans spends).mono (Nat.le_refl 1), .inl ?_⟩
      intro ep σ others turns home
      simp only [Transport.receive, Task.self_bind]
      rw [Task.bind_ok (answered ep σ others turns home)]
      simp only [carries, if_true, Task.request, bind_assoc, Task.asking_bind, allocated]
      rfl
    · refine ⟨_, fetched, Machine.spends_fetched.mono (Nat.zero_le 1), .inr ⟨full, ?_, ?_⟩⟩
      · exact Error.ofChannel .noSpace
      · intro ep σ others turns home
        simp only [Transport.receive, Task.self_bind]
        rw [Task.bind_ok (answered ep σ others turns home)]
        simp only [carries, if_true, Task.request, bind_assoc, Task.asking_bind, refused]
        rfl
  · refine ⟨_, fetched, Machine.spends_fetched.mono (Nat.zero_le slots), .inl ?_⟩
    intro ep σ others turns home
    simp only [Transport.receive, Task.self_bind]
    rw [Task.bind_ok (answered ep σ others turns home)]
    simp only [carries]
    rfl

/-- No message is reported if none waits. -/
theorem takeEvent_nil (duplex : Duplex m a b [] atB) (home : ep.home = a) :
    Transport.takeEvent ⟨.endpoint ep, ⟨m, others⟩, turns⟩ =
      .ok false ⟨.endpoint ep, ⟨m, others⟩, turns⟩ := by
  have can := duplex.canRecv home
  simp only [Transport.takeEvent, Task.self_bind, Task.machine_bind, Endpoint.takeEvent, can,
    List.isEmpty_nil, Bool.not_true, Bool.and_false]
  rfl

/-- A message that waits is reported once. -/
theorem takeEvent_cons (duplex : Duplex m a b (letter :: rest) atB) (home : ep.home = a)
    (armed : ep.armed = true) :
    Transport.takeEvent ⟨.endpoint ep, ⟨m, others⟩, turns⟩ =
      .ok true ⟨.endpoint { ep with armed := false }, ⟨m, others⟩, turns⟩ := by
  have can := duplex.canRecv home
  simp only [Transport.takeEvent, Task.self_bind, Task.machine_bind, Endpoint.takeEvent, can,
    armed, List.isEmpty_cons, Bool.not_false, Bool.and_true, if_true]
  rfl

/-- The report of the next message can always be armed. -/
theorem rearm (duplex : Duplex m a b atA atB) (ep : Endpoint) :
    Transport.rearm ⟨.endpoint ep, ⟨m, others⟩, turns⟩ =
      .ok () ⟨.endpoint { ep with armed := true }, ⟨m, others⟩, turns⟩ := by
  simp only [Transport.rearm, Task.self_bind, Task.request, bind_assoc, Task.asking_bind,
    Endpoint.register, Endpoint.unlessFault, duplex.quiet.nextFault]
  rfl

end Duplex

end Conduit

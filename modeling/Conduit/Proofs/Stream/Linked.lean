/-
# Two transports back to back

`Linked m a b toB toA` says that `a` and `b` are the ends of one channel of the
machine `m`, over the kernel or over shared memory, with the messages `toB` on their
way from `a` to `b` and `toA` on their way back. For a stream the two kinds of
channel do not differ: what is offered goes behind the messages on the way or is
refused for the moment, and what is received is the first of them. The laws hold
whoever else is there and whatever turns are to come, as none of these steps waits.
-/

import Conduit.Proofs.Kernel.Queues
import Conduit.Proofs.Slots.Channel
import Conduit.Proofs.Task.Ends
import Conduit.Transport

namespace Conduit

/-- The letter with these words and no capability. -/
def Letter.plain (words : List UInt64) : Letter := ⟨Letter.fit words, none⟩

/-- Two endpoints that are each other's peers, and the words of the letters in their
queues. No letter carries a capability, and no fault is planned. -/
structure Endpoint.Peers (m : Machine) (a b : Endpoint) (toB toA : List (List UInt64)) :
    Prop where
  peerA : a.peer = some b.home
  peerB : b.peer = some a.home
  apart : a.home ≠ b.home
  atB : m.kernel.queues.get? b.home = some (toB.map Letter.plain)
  atA : m.kernel.queues.get? a.home = some (toA.map Letter.plain)
  widthB : ∀ words ∈ toB, words.length = Letter.width
  widthA : ∀ words ∈ toA, words.length = Letter.width
  sparesA : ∀ op, m.Spares a.home op
  sparesB : ∀ op, m.Spares b.home op

/-- The words of the messages that wait to be received. -/
def Transport.waiting (m : Machine) : Transport → List (List UInt64)
  | .endpoint ep => (m.kernel.waiting ep.home).map fun letter => letter.words.toList
  | .slots chan => chan.incoming.waiting m.memory chan.recvIndex

/-- Two ends of one channel, and the messages on their way to each of them. -/
inductive Linked (m : Machine) :
    Transport → Transport → List (List UInt64) → List (List UInt64) → Prop
  | endpoints {a b : Endpoint} {toB toA : List (List UInt64)}
      (peers : Endpoint.Peers m a b toB toA) : Linked m (.endpoint a) (.endpoint b) toB toA
  | slots {a b : SlotChannel} {toB toA : List (List UInt64)}
      (joined : SlotChannel.Joined m.memory a b toB toA) : Linked m (.slots a) (.slots b) toB toA

theorem Endpoint.Peers.symm {m : Machine} {a b : Endpoint} {toB toA : List (List UInt64)}
    (peers : Peers m a b toB toA) : Peers m b a toA toB where
  peerA := peers.peerB
  peerB := peers.peerA
  apart := peers.apart.symm
  atB := peers.atA
  atA := peers.atB
  widthB := peers.widthA
  widthA := peers.widthB
  sparesA := peers.sparesB
  sparesB := peers.sparesA

namespace Linked

variable {m : Machine} {a b : Transport} {toB toA : List (List UInt64)} {words : List UInt64}
  {σ : Type}

theorem symm (linked : Linked m a b toB toA) : Linked m b a toA toB := by
  cases linked with
  | endpoints peers => exact .endpoints peers.symm
  | slots joined => exact .slots joined.symm

/-- The two ends have messages of the same width. -/
theorem width_eq (linked : Linked m a b toB toA) : a.width = b.width := by
  cases linked with
  | endpoints peers => rfl
  | slots joined => exact congrArg (· - 1) joined.slotWords_eq

theorem one_le_width (linked : Linked m a b toB toA) : 1 ≤ a.width := by
  cases linked with
  | endpoints peers => exact (by decide : 1 ≤ Letter.width)
  | @slots a b _ _ joined =>
      have room := joined.outgoing_carries.room
      change 2 ≤ a.slotWords at room
      change 1 ≤ a.slotWords - 1
      omega

theorem waiting_eq (linked : Linked m a b toB toA) : b.waiting m = toB := by
  cases linked with
  | endpoints peers =>
      simp only [Transport.waiting, Kernel.waiting, peers.atB, Option.getD_some, List.map_map]
      exact (List.map_congr_left fun words mem => Letter.toList_fit (peers.widthB words mem)).trans
        (List.map_id _)
  | slots joined => exact joined.carriesB.waiting_eq

/-- An end can receive exactly if a message is on its way to it. -/
theorem canReceive (linked : Linked m a b toB toA) (others : σ) (turns : List (Turn σ)) :
    Transport.canReceive ⟨b, ⟨m, others⟩, turns⟩ =
      .ok (!toB.isEmpty) ⟨b, ⟨m, others⟩, turns⟩ := by
  cases linked with
  | @endpoints a b _ _ peers =>
      have can := Endpoint.canRecv_eq peers.atB
      rw [List.isEmpty_map] at can
      simp only [Transport.canReceive, Task.self_bind, Task.machine_bind, can]
      rfl
  | slots joined =>
      simp only [Transport.canReceive, Task.self_bind, Task.machine_bind,
        SlotChannel.canReceive_eq joined]
      rfl

/-- The first message on its way is received. -/
theorem receive {rest : List (List UInt64)} (linked : Linked m a b (words :: rest) toA) :
    ∃ b' m', Linked m' a b' rest toA ∧ b'.backlogLimit m' = b.backlogLimit m ∧
      ∀ (σ : Type) (others : σ) (turns : List (Turn σ)),
        Transport.receive ⟨b, ⟨m, others⟩, turns⟩ =
          .ok (some { words }) ⟨b', ⟨m', others⟩, turns⟩ := by
  cases linked with
  | @endpoints a b _ _ peers =>
      refine ⟨.endpoint b, m.fetched b.home (rest.map Letter.plain), .endpoints ?_, rfl, ?_⟩
      · exact { peers with
          atB := by rw [Machine.get?_fetched, if_pos rfl]
          atA := by rw [Machine.get?_fetched, if_neg peers.apart.symm, peers.atA]
          widthB := fun words mem => peers.widthB words (List.mem_cons_of_mem _ mem)
          sparesA := fun op => Machine.spares_fetched.mpr (peers.sparesA op)
          sparesB := fun op => Machine.spares_fetched.mpr (peers.sparesB op) }
      · intro σ others turns
        have received := Endpoint.recv_cons (peers.sparesB .recv) peers.atB
        have fits := Letter.toList_fit (peers.widthB words List.mem_cons_self)
        have answered : (Task.awaitAnswer (Task.asking b.recv) : Task Transport σ _)
            ⟨.endpoint b, ⟨m, others⟩, turns⟩ = .ok (.ok (Letter.plain words))
              ⟨.endpoint b, ⟨m.fetched b.home (rest.map Letter.plain), others⟩, turns⟩ := by
          refine Task.awaitAnswer_ok ?_ (by simp)
          rw [← bind_pure (Task.asking b.recv), Task.asking_bind, received]
          rfl
        simp only [Transport.receive, Task.self_bind]
        rw [Task.bind_ok answered]
        simp only [Letter.plain, fits]
        rfl
  | @slots a b _ _ joined =>
      refine ⟨.slots (b.afterReceive m).1, (b.afterReceive m).2, .slots joined.afterReceive, rfl, ?_⟩
      intro σ others turns
      have width : words.take b.payloadWords = words :=
        List.take_of_length_le (Nat.le_of_eq (joined.carriesB.length_of_mem List.mem_cons_self))
      simp only [Transport.receive, Task.self_bind, Task.machine_bind,
        SlotChannel.receive_cons joined, width]
      rfl

/-- A message of the right width goes behind those on the way, or is refused for the
moment because as many of them wait as may. -/
theorem offer (linked : Linked m a b toB toA) (fits : words.length = a.width)
    (flags : SendFlags) :
    (b.backlogLimit m ≤ toB.length ∧ ∀ (σ : Type) (others : σ) (turns : List (Turn σ)),
      Transport.offer { words } flags ⟨a, ⟨m, others⟩, turns⟩ =
        .ok none ⟨a, ⟨m, others⟩, turns⟩) ∨
    ∃ a' m', Linked m' a' b (toB ++ [words]) toA ∧ toB.length < b.backlogLimit m ∧
      b.backlogLimit m' = b.backlogLimit m ∧ ∀ (σ : Type) (others : σ) (turns : List (Turn σ)),
        Transport.offer { words } flags ⟨a, ⟨m, others⟩, turns⟩ =
          .ok (some ()) ⟨a', ⟨m', others⟩, turns⟩ := by
  cases linked with
  | @endpoints a b _ _ peers =>
      by_cases space : toB.length < m.kernel.depth
      · right
        refine ⟨.endpoint a, m.posted b.home ((toB ++ [words]).map Letter.plain) flags,
          .endpoints ?_, space, rfl, ?_⟩
        · exact { peers with
            atB := by rw [Machine.get?_posted, if_pos rfl]
            atA := by rw [Machine.get?_posted, if_neg peers.apart.symm, peers.atA]
            widthB := by
              intro w mem
              rcases List.mem_append.mp mem with old | new
              · exact peers.widthB w old
              · rw [List.mem_singleton.mp new]
                exact fits
            sparesA := fun op => Machine.spares_posted.mpr (peers.sparesA op)
            sparesB := fun op => Machine.spares_posted.mpr (peers.sparesB op) }
        · intro σ others turns
          have sent := Endpoint.send_space (peers.sparesA .send) peers.peerA peers.atB
            (by rw [List.length_map]; exact space) flags (Letter.plain words)
          simp only [Transport.offer, Task.self_bind, Task.asking_bind, List.map_append,
            List.map_cons, List.map_nil]
          rw [show (⟨Letter.fit words, none⟩ : Letter) = Letter.plain words from rfl, sent]
          rfl
      · refine .inl ⟨Nat.not_lt.mp space, ?_⟩
        intro σ others turns
        have refused := Endpoint.send_full (peers.sparesA .send) peers.peerA peers.atB
          (by rw [List.length_map]; exact Nat.not_lt.mp space) flags (Letter.plain words)
        simp only [Transport.offer, Task.self_bind, Task.asking_bind]
        rw [show (⟨Letter.fit words, none⟩ : Letter) = Letter.plain words from rfl, refused]
        rfl
  | @slots a b _ _ joined =>
      have whole : SlotChannel.pad a.payloadWords words = words := SlotChannel.pad_eq_self fits
      have small : words.length ≤ a.payloadWords := Nat.le_of_eq fits
      have limit : a.slots = Transport.backlogLimit m (.slots b) := joined.slots_eq
      by_cases space : toB.length < a.slots
      · right
        refine ⟨.slots (a.afterSend words m).1, (a.afterSend words m).2, .slots ?_,
          limit ▸ space, rfl, ?_⟩
        · have sent := joined.afterSend words space
          rwa [whole] at sent
        · intro σ others turns
          simp only [Transport.offer, Task.self_bind, Task.machine_bind,
            SlotChannel.send_space joined small space]
          rfl
      · refine .inl ⟨limit ▸ Nat.not_lt.mp space, ?_⟩
        intro σ others turns
        have full : toB.length = a.slots := by
          have bounded := joined.bounded
          omega
        simp only [Transport.offer, Task.self_bind, Task.machine_bind,
          SlotChannel.send_full joined small full]
        rfl

end Linked

end Conduit

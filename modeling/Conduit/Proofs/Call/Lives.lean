/-
# Parties from their making on

A party is made over an endpoint or over one end of a channel, and from then on it completes
operations while the others act (`Lives`). What it took and what has arrived can be told of every
such life (`Lives.reception`), and of every loop of dispatches that ends (`Dispatches.drains`). So
wherever a party gets, it is notified of what waits for it, and a loop of dispatches leaves nothing
that waits (`Lives.attended`).
-/

import Conduit.Proofs.Call.Wakeups

namespace Conduit

namespace Rpc

variable {η σ : Type}

/-! ### Parties as they are made -/

/-- A party over an endpoint is notified from the start. -/
theorem inbox_of_overEndpoint {ep : Endpoint} {m m' : Machine} {rpc : Rpc η}
    (made : overEndpoint ep m = (.ok rpc, m')) (receives : m.Spares ep.home .recv)
    (notifies : m.Spares ep.home .register) (others : σ) :
    Inbox (.endpoint ep.home) true rpc.transport ⟨m', others⟩
      ((m.kernel.waiting ep.home).map Letter.message) := by
  unfold overEndpoint at made
  have waiting := Endpoint.waiting_allocRecvSlot ep m
  rcases slot : ep.allocRecvSlot m with ⟨e | u, m₁⟩
  · simp [slot] at made
  · rw [slot] at waiting
    have waiting' := Endpoint.waiting_register ep m₁
    rcases armed : ep.register m₁ with ⟨e | ep', m₂⟩
    · simp [slot, armed] at made
    · rw [armed] at waiting'
      simp only [slot, armed, Prod.mk.injEq, Except.ok.injEq] at made
      obtain ⟨rfl, rfl⟩ := made
      have same := Endpoint.register_ok (congrArg Prod.fst armed)
      have across : (create (.endpoint ep') : Rpc η).transport = .endpoint ep' := rfl
      rw [across]
      refine .of_endpoint (by rw [same]) (by rw [same]) ?_ ?_ ?_
      · exact Endpoint.spares_register armed (Endpoint.spares_allocRecvSlot slot receives)
      · exact Endpoint.spares_register armed (Endpoint.spares_allocRecvSlot slot notifies)
      · exact congrFun (waiting'.trans waiting) ep.home

/-- Nothing waits at either end of a new channel over shared memory, which is polled. -/
theorem inbox_of_overHalves {memory : Memory} {m : Machine} {bytes slotBytes : Nat} {v : View}
    {half : Bool} {chan : SlotChannel} {peer : σ → SlotChannel} {others : σ}
    (allocated : memory.allocate bytes = .ok (v, m.memory))
    (ours : SlotChannel.overHalves v slotBytes half = .ok chan)
    (theirs : SlotChannel.overHalves v slotBytes (!half) = .ok (peer others)) :
    Inbox (.slots peer) true (create (.slots chan) : Rpc η).transport ⟨m, others⟩ [] := by
  have inbox (polled : chan.localBell = none)
      (joined : SlotChannel.Joined m.memory (peer others) chan [] []) :
      Inbox (.slots peer) true (.slots chan) ⟨m, others⟩
        (([] : List (List UInt64)).map Message.ofWords) := .slots polled joined
  cases half with
  | true =>
      cases slotted_overHalves allocated ours theirs with
      | intro joined _ _ polled _ => exact inbox polled.here joined.symm
  | false =>
      cases slotted_overHalves allocated theirs ours with
      | intro joined _ _ _ polled => exact inbox polled.here joined

/-! ### Lives -/

/-- How a party gets somewhere from its making on: the others act, and it completes operations of
whatever outcome, with the others acting while they last. -/
inductive Lives [Handler η σ] : Post σ → Rpc η → Scene σ → Prop
  | overEndpoint {ep : Endpoint} {m m' : Machine} {rpc : Rpc η} {others : σ}
      (made : Rpc.overEndpoint ep m = (.ok rpc, m')) (receives : m.Spares ep.home .recv)
      (notifies : m.Spares ep.home .register) : Lives (.endpoint ep.home) rpc ⟨m', others⟩
  | overHalves {memory : Memory} {m : Machine} {bytes slotBytes : Nat} {v : View} {half : Bool}
      {chan : SlotChannel} {peer : σ → SlotChannel} {others : σ}
      (allocated : memory.allocate bytes = .ok (v, m.memory))
      (ours : SlotChannel.overHalves v slotBytes half = .ok chan)
      (theirs : SlotChannel.overHalves v slotBytes (!half) = .ok (peer others)) :
      Lives (.slots peer) (create (.slots chan)) ⟨m, others⟩
  | others {post : Post σ} {rpc : Rpc η} {scene scene' : Scene σ} {new : List Message}
      (lives : Lives post rpc scene) (brings : post.Brings scene new scene') :
      Lives post rpc scene'
  | did {post : Post σ} {rpc : Rpc η} {scene : Scene σ} {op : Operation η σ}
      {turns : List (Turn σ)} {outcome : Except Error Unit} {after : Moment (Rpc η) σ}
      (lives : Lives post rpc scene) (own : ∀ use, op ≠ .useTransport use)
      (lawful : ∀ turn ∈ turns, Turn.Follows post.Brought turn)
      (completed : Task.settle op.perform ⟨rpc, scene, turns⟩ = .ok outcome after) :
      Lives post after.self after.scene

/-- Dispatches are repeated until one answers that the party is idle, whatever comes of the
others, and the others act in between. -/
inductive Dispatches [Handler η σ] (post : Post σ) : Rpc η → Scene σ → Rpc η → Scene σ → Prop
  | idle {rpc : Rpc η} {scene : Scene σ} {turns : List (Turn σ)} {after : Moment (Rpc η) σ}
      (lawful : ∀ turn ∈ turns, Turn.Follows post.Brought turn)
      (answered : dispatchPending ⟨rpc, scene, turns⟩ = .ok .idle after) :
      Dispatches post rpc scene after.self after.scene
  | others {rpc rpc' : Rpc η} {scene mid scene' : Scene σ} {new : List Message}
      (brings : post.Brings scene new mid) (rest : Dispatches post rpc mid rpc' scene') :
      Dispatches post rpc scene rpc' scene'
  | next {rpc rpc' : Rpc η} {scene scene' : Scene σ} {turns : List (Turn σ)}
      {outcome : Except Error Dispatch} {mid : Moment (Rpc η) σ}
      (lawful : ∀ turn ∈ turns, Turn.Follows post.Brought turn)
      (completed : Task.settle dispatchPending ⟨rpc, scene, turns⟩ = .ok outcome mid)
      (rest : Dispatches post mid.self mid.scene rpc' scene') :
      Dispatches post rpc scene rpc' scene'

section Lives

variable [Handler η σ] {post : Post σ} {rpc rpc' : Rpc η} {scene scene' : Scene σ}

/-- Of every life it can be told what was taken and what has arrived. -/
theorem Lives.reception (wanders : Wanders η post.Brought) (lives : Lives post rpc scene) :
    ∃ taken arrived, Reception post taken arrived rpc scene := by
  induction lives with
  | overEndpoint made receives notifies =>
      exact ⟨_, _, .start (inbox_of_overEndpoint made receives notifies _)⟩
  | overHalves allocated ours theirs =>
      exact ⟨_, _, .start (inbox_of_overHalves allocated ours theirs)⟩
  | others _ brings ih =>
      obtain ⟨taken, arrived, reception⟩ := ih wanders
      exact ⟨_, _, reception.others brings⟩
  | did _ own lawful completed ih =>
      obtain ⟨taken, arrived, reception⟩ := ih wanders
      obtain ⟨events, arrived', trace⟩ := traced_of_completed wanders own lawful completed arrived
      exact ⟨_, _, reception.did own lawful completed trace⟩

/-- Of every loop of dispatches that ends it can be told what it took. -/
theorem Dispatches.drains (wanders : Wanders η post.Brought)
    (dispatches : Dispatches post rpc scene rpc' scene') (arrived : List Message) :
    ∃ messages arrived', Drains post rpc scene arrived messages rpc' scene' arrived' := by
  induction dispatches generalizing arrived with
  | idle lawful answered => exact ⟨_, _, .idle lawful answered⟩
  | others brings _ ih =>
      obtain ⟨messages, arrived', drains⟩ := ih _
      exact ⟨_, _, .others brings drains⟩
  | next lawful completed _ ih =>
      obtain ⟨events, more, trace⟩ := traced_of_completed wanders (fun _ same => by cases same)
        lawful (completed_dispatch completed) arrived
      obtain ⟨messages, arrived', drains⟩ := ih more
      exact ⟨_, _, .next lawful completed trace drains⟩

/-- Wherever a party gets, it is notified of what waits for it, a dispatch answers that it is idle
exactly if nothing waits and otherwise takes the oldest message, and a loop of dispatches leaves
nothing that waits. -/
theorem Lives.attended (wanders : Wanders η post.Brought) (lives : Lives post rpc scene) :
    ∃ taken waiting, Inbox post true rpc.transport scene waiting ∧
      (∀ turns, (∀ turn ∈ turns, Turn.Follows post.Brought turn) →
        Attends post taken waiting ⟨rpc, scene, turns⟩) ∧
      ∀ rpc' scene', Dispatches post rpc scene rpc' scene' →
        Inbox post true rpc'.transport scene' [] := by
  obtain ⟨taken, arrived, reception⟩ := lives.reception wanders
  obtain ⟨waiting, inbox, rfl⟩ := reception.inbox wanders
  refine ⟨taken, waiting, inbox, fun turns lawful => reception.attends wanders inbox lawful, ?_⟩
  intro rpc' scene' dispatches
  obtain ⟨messages, arrived', drains⟩ := dispatches.drains wanders (taken ++ waiting)
  exact (drains.all wanders reception).1

end Lives

end Rpc

end Conduit

/-
# What a step does to the messages that wait

A step of the party takes the oldest of the messages that wait for it, or none. Over a
capability channel it may add one, if the party sends to itself (`handled_of_deal`); over
shared memory the others alone add messages, and the bells are rung by those who send
(`passed_of_deal`).

The others bring messages between the steps of the party and while it waits (`Arriving`).
-/

import Conduit.Proofs.Call.Conduct.Operations
import Conduit.Proofs.Call.Shared.Channel

namespace Conduit

/-- A message of words alone. -/
def Message.ofWords (words : List UInt64) : Message := { words }

namespace Bells

@[simp]
theorem size_ring (bells : Bells) (bell : BellId) : (bells.ring bell).all.size = bells.all.size :=
  Array.size_modify

@[simp]
theorem size_take (bells : Bells) (bell : BellId) :
    (bells.take bell).2.all.size = bells.all.size := Array.size_modify

theorem get_modify {bells : Bells} {bell other : BellId} (apart : bell ≠ other)
    (change : Bell → Bell) :
    (⟨bells.all.modify bell.number change⟩ : Bells).get other = bells.get other := by
  have numbers : bell.number ≠ other.number := fun same => apart (congrArg BellId.mk same)
  simp only [get, Array.getD_eq_getD_getElem?, Array.getElem?_modify, if_neg numbers]

end Bells

namespace SlotChannel

theorem size_announce (c : SlotChannel) (bells : Bells) :
    (c.announce bells).all.size = bells.all.size := by
  unfold announce
  split
  · rfl
  · exact Bells.size_ring _ _

/-- An end rings no bell but that of its peer. -/
theorem get_announce (c : SlotChannel) {bell : BellId} (other : c.remoteBell ≠ some bell)
    (bells : Bells) : (c.announce bells).get bell = bells.get bell := by
  unfold announce
  split
  · rfl
  case h_2 rung remote =>
    have apart : rung ≠ bell := fun same => other (same ▸ remote)
    exact Bells.get_modify apart _

end SlotChannel

/-- The messages that a party sends to itself: it may have been given its own capability for
that of its peer. -/
def Transport.echoed : Transport → List Event → List Message
  | .endpoint ep, events =>
      if ep.peer = some ep.home then (Rpc.sentIn events).map fun message => message.letter.message
      else []
  | .slots _, _ => []

namespace Rpc

variable {η σ : Type}

section Step

variable {calls : MessageType → List Value → Prop} {notices : Prop} {s s' : Seat η}
  {events : List Event}

/-- What a step does to the queue of an endpoint, and to what is planned for it. -/
structure Handled (notices : Prop) (ep : Endpoint) (m : Machine) (events : List Event)
    (transport : Transport) (m' : Machine) : Prop where
  own : ∃ ep', transport = .endpoint ep' ∧ ep'.home = ep.home ∧ (¬ notices → ep'.armed = ep.armed)
  spares : ∀ op, m.Spares ep.home op → m'.Spares ep.home op
  queue : receivedIn events ++ (m'.kernel.waiting ep.home).map Letter.message =
    (m.kernel.waiting ep.home).map Letter.message ++
      (Transport.endpoint ep).echoed events

theorem Handled.quiet {ep : Endpoint} {m m' : Machine}
    (spares : ∀ op, m.Spares ep.home op → m'.Spares ep.home op)
    (waiting : m'.kernel.waiting = m.kernel.waiting) :
    Handled notices ep m [] (.endpoint ep) m' where
  own := ⟨ep, rfl, rfl, fun _ => rfl⟩
  spares := spares
  queue := by
    rw [waiting]
    simp [Transport.echoed, receivedIn, sentIn]

section Endpoint

variable {ep : Endpoint} {m m' : Machine} {transport : Transport} {message : Message}

/-- What is sent comes back only to who is its own peer. -/
theorem Handled.posted (posts : Transport.Posts message (.endpoint ep) m transport m') :
    Handled notices ep m [.sent message] transport m' := by
  cases posts with
  | endpoint sent =>
      obtain ⟨peer, known, waiting⟩ := Endpoint.send_effect sent
      refine ⟨⟨ep, rfl, rfl, fun _ => rfl⟩, fun _ => Endpoint.spares_send sent, ?_⟩
      rw [waiting]
      by_cases here : peer = ep.home
      · simp [Transport.echoed, known, here, receivedIn, sentIn]
      · simp [Transport.echoed, known, here, receivedIn, Ne.symm here]

/-- What is taken was the first to wait. -/
theorem Handled.drawn (draws : Transport.Draws message (.endpoint ep) m transport m') :
    Handled notices ep m [.received message] transport m' := by
  cases draws with
  | endpoint received =>
      obtain ⟨rest, first, waiting⟩ := Endpoint.recv_effect received
      refine ⟨⟨ep, rfl, rfl, fun _ => rfl⟩, fun _ => Endpoint.spares_recv received, ?_⟩
      rw [waiting, first]
      simp [Transport.echoed, receivedIn, sentIn]

/-- Looking after notifications leaves the queue alone. -/
theorem Handled.noticed (may : notices)
    (noticed : Transport.Notices (.endpoint ep) m transport m') :
    Handled notices ep m [] transport m' := by
  have quiet : Handled notices ep m [] (.endpoint ep) m := .quiet (fun _ spared => spared) rfl
  cases noticed with
  | event =>
      exact { quiet with
        own := ⟨_, rfl, (Endpoint.takeEvent_ends ep m).1, fun never => absurd may never⟩ }
  | @armed _ ep' _ _ granted =>
      have waiting := Endpoint.waiting_register ep m
      have armed := Endpoint.register_ok (congrArg Prod.fst granted)
      rw [granted] at waiting
      have kept : Handled notices ep m [] (.endpoint ep) m' :=
        .quiet (fun _ => Endpoint.spares_register granted) waiting
      exact { kept with own := ⟨ep', rfl, by rw [armed], fun never => absurd may never⟩ }
  | unarmed refused =>
      have waiting := Endpoint.waiting_register ep m
      rw [refused] at waiting
      exact .quiet (fun _ => Endpoint.spares_register refused) waiting

end Endpoint

/-- A step at an endpoint: a message is sent or taken there, or the queue is left alone. -/
theorem handled_of_deal {ep : Endpoint} (across : s.rpc.transport = .endpoint ep)
    (deal : Deal calls notices s events s') :
    Handled notices ep s.machine events s'.rpc.transport s'.machine := by
  have quiet : ∀ {m : Machine}, (∀ op, s.machine.Spares ep.home op → m.Spares ep.home op) →
      m.kernel.waiting = s.machine.kernel.waiting →
      Handled notices ep s.machine [] s.rpc.transport m := by
    intro m spares waiting
    rw [across]
    exact .quiet spares waiting
  have still := quiet (fun _ spared => spared) rfl
  cases deal with
  | send posts reason => exact .posted (across ▸ posts)
  | unsent across' refused =>
      cases across.symm.trans across'
      exact quiet (fun _ => Endpoint.spares_send refused) (Endpoint.send_refused refused)
  | take draws picks => exact .drawn (across ▸ draws)
  | vain across' refused soft =>
      cases across.symm.trans across'
      exact quiet (fun _ => Endpoint.spares_recv refused) (Endpoint.recv_refused refused)
  | barred across' refused hard =>
      cases across.symm.trans across'
      exact quiet (fun _ => Endpoint.spares_recv refused) (Endpoint.recv_refused refused)
  | slot across' granted =>
      cases across.symm.trans across'
      have waiting := Endpoint.waiting_allocRecvSlot ep s.machine
      rw [granted] at waiting
      exact quiet (fun _ => Endpoint.spares_allocRecvSlot granted) waiting
  | slotless across' refused =>
      cases across.symm.trans across'
      have waiting := Endpoint.waiting_allocRecvSlot ep s.machine
      rw [refused] at waiting
      exact quiet (fun _ => Endpoint.spares_allocRecvSlot refused) waiting
  | @write _ _ _ _ _ memory across' written =>
      have plans : ({ s.machine with memory } : Machine).faults = s.machine.faults := rfl
      exact quiet (fun _ => (Machine.spares_congr plans).mpr) rfl
  | allocate across' answered =>
      exact quiet (fun _ spared => Machine.spares_callAllocFrame spared answered)
        (Machine.waiting_callAllocFrame answered)
  | map across' frame =>
      exact quiet (fun _ spared => Machine.spares_callMapFrame spared frame)
        (Machine.waiting_callMapFrame s.machine frame)
  | prepare _ across' idle answered =>
      exact quiet (fun _ spared => Machine.spares_callAllocFrame spared answered)
        (Machine.waiting_callAllocFrame answered)
  | mark => exact still
  | unmark => exact still
  | near => exact still
  | far => exact still
  | adopt across' inHand tagged carried =>
      cases across.symm.trans across'
      exact { still with own := ⟨_, rfl, rfl, fun _ => rfl⟩ }
  | answer args known =>
      exact { still with queue := by simp [Transport.echoed, receivedIn, sentIn] }
  | handlers => exact still
  | register registered =>
      rw [transport_register registered]
      exact still
  | pageSize => exact still
  | release => exact still
  | notice may noticed => exact .noticed may (across ▸ noticed)

/-- A payload that was put into a slot had room there. -/
theorem eq_of_send_filled {m m' : Machine} {a a' b : SlotChannel} {payload : List UInt64}
    {toB toA : List (List UInt64)} (joined : SlotChannel.Joined m.memory a b toB toA)
    (filled : a.send payload m = .ok (.ok true, a', m')) :
    toB.length < a.slots ∧ a' = (a.afterSend payload m).1 ∧ m' = (a.afterSend payload m).2 := by
  by_cases fits : payload.length ≤ a.payloadWords
  · rcases Nat.lt_or_eq_of_le joined.bounded with space | full
    · rw [SlotChannel.send_space joined fits space] at filled
      simp only [Except.ok.injEq, Prod.mk.injEq, true_and] at filled
      exact ⟨space, by rw [filled], by rw [filled]⟩
    · rw [SlotChannel.send_full joined fits full] at filled
      cases filled
  · rw [SlotChannel.send_oversized (Nat.lt_of_not_le fits)] at filled
    cases filled

/-- A payload that was taken was the oldest, and is taken whole. -/
theorem eq_of_receive_emptied {m m' : Machine} {a b b' : SlotChannel} {words : List UInt64}
    {toB toA : List (List UInt64)} (joined : SlotChannel.Joined m.memory a b toB toA)
    (emptied : b.receive b.payloadWords m = .ok (some words, b', m')) :
    ∃ rest, toB = words :: rest ∧ b' = (b.afterReceive m).1 ∧ m' = (b.afterReceive m).2 := by
  cases toB with
  | nil =>
      rw [SlotChannel.receive_nil joined] at emptied
      cases emptied
  | cons first rest =>
      have whole : first.take b.payloadWords = first :=
        List.take_of_length_le (Nat.le_of_eq (joined.carriesB.length_of_mem List.mem_cons_self))
      rw [SlotChannel.receive_cons joined, whole] at emptied
      simp only [Except.ok.injEq, Prod.mk.injEq, Option.some.injEq] at emptied
      obtain ⟨rfl, after⟩ := emptied
      exact ⟨rest, rfl, by rw [after], by rw [after]⟩

/-- What a step does at the panes of a channel, and to the bells. -/
structure Passed (notices : Prop) (peer chan : SlotChannel) (m : Machine)
    (toUs : List (List UInt64)) (events : List Event) (transport : Transport) (m' : Machine) :
    Prop where
  panes : ∃ chan' toUs' toPeer, transport = .slots chan' ∧ chan'.localBell = chan.localBell ∧
    chan'.remoteBell = chan.remoteBell ∧ SlotChannel.Joined m'.memory peer chan' toUs' toPeer ∧
    receivedIn events ++ toUs'.map Message.ofWords = toUs.map Message.ofWords
  size : m'.bells.all.size = m.bells.all.size
  /-- Only the bell of the peer is rung, and only a notification is taken. -/
  bells : ∀ bell, chan.remoteBell ≠ some bell → (notices → chan.localBell ≠ some bell) →
    m'.bells.get bell = m.bells.get bell

theorem Passed.quiet {peer chan : SlotChannel} {m m' : Machine} {toUs toPeer : List (List UInt64)}
    (joined : SlotChannel.Joined m.memory peer chan toUs toPeer)
    (memory : m'.memory = m.memory) (bells : m'.bells = m.bells) :
    Passed notices peer chan m toUs [] (.slots chan) m' where
  panes := ⟨chan, toUs, toPeer, rfl, rfl, rfl, memory.symm ▸ joined, rfl⟩
  size := by rw [bells]
  bells _ _ _ := by rw [bells]

section Slots

variable {peer chan : SlotChannel} {toPeer toUs : List (List UInt64)} {m m' : Machine}
  {transport : Transport} {message : Message}
  (joined : SlotChannel.Joined m.memory peer chan toUs toPeer)

include joined

theorem Passed.posted (posts : Transport.Posts message (.slots chan) m transport m') :
    Passed notices peer chan m toUs [.sent message] transport m' := by
  cases posts with
  | slots capless filled =>
      obtain ⟨space, rfl, rfl⟩ := eq_of_send_filled joined.symm filled
      exact {
        panes := ⟨_, _, _, rfl, rfl, rfl, (joined.symm.afterSend _ space).symm, rfl⟩
        size := chan.size_announce _
        bells := fun bell other _ => chan.get_announce other _ }

theorem Passed.drawn (draws : Transport.Draws message (.slots chan) m transport m') :
    Passed notices peer chan m toUs [.received message] transport m' := by
  cases draws with
  | slots emptied =>
      obtain ⟨rest, rfl, rfl, rfl⟩ := eq_of_receive_emptied joined emptied
      exact {
        panes := ⟨_, _, _, rfl, rfl, rfl, joined.afterReceive, rfl⟩
        size := rfl
        bells := fun _ _ _ => rfl }

/-- Looking after notifications leaves the panes alone. -/
theorem Passed.noticed (may : notices)
    (noticed : Transport.Notices (.slots chan) m transport m') :
    Passed notices peer chan m toUs [] transport m' := by
  cases noticed with
  | bell taken =>
      unfold SlotChannel.takeNotification at taken
      cases localBell : chan.localBell with
      | none =>
          simp only [localBell, SlotChannel.canReceive_eq joined, bind, Except.bind, pure,
            Except.pure, Except.ok.injEq, Prod.mk.injEq] at taken
          rw [← taken.2]
          exact .quiet joined rfl rfl
      | some own =>
          simp only [localBell, Except.ok.injEq, Prod.mk.injEq] at taken
          rw [← taken.2]
          refine ⟨⟨chan, toUs, toPeer, rfl, rfl, rfl, joined, rfl⟩, Bells.size_take _ _, ?_⟩
          intro bell _ untaken
          have apart : own ≠ bell := fun same => untaken may (same ▸ localBell)
          exact Bells.get_modify apart _

end Slots

/-- A step over shared memory: a message is sent or taken at the panes, or nothing happens
there. -/
theorem passed_of_deal {peer chan : SlotChannel} {toPeer toUs : List (List UInt64)}
    (across : s.rpc.transport = .slots chan)
    (joined : SlotChannel.Joined s.machine.memory peer chan toUs toPeer)
    (deal : Deal calls notices s events s') :
    Passed notices peer chan s.machine toUs events s'.rpc.transport s'.machine := by
  have still : Passed notices peer chan s.machine toUs [] s.rpc.transport s.machine := by
    rw [across]
    exact .quiet joined rfl rfl
  cases deal with
  | send posts reason => exact .posted joined (across ▸ posts)
  | unsent across' refused => cases across.symm.trans across'
  | take draws picks => exact .drawn joined (across ▸ draws)
  | vain across' refused soft => cases across.symm.trans across'
  | barred across' refused hard => cases across.symm.trans across'
  | slot across' granted => cases across.symm.trans across'
  | slotless across' refused => cases across.symm.trans across'
  | write across' written => simp [across, Transport.isEndpoint] at across'
  | allocate across' answered => simp [across, Transport.isEndpoint] at across'
  | map across' frame => simp [across, Transport.isEndpoint] at across'
  | prepare _ across' => simp [across, Transport.isEndpoint] at across'
  | mark => exact still
  | unmark => exact still
  | near => exact still
  | far => exact still
  | adopt across' inHand tagged carried => cases across.symm.trans across'
  | answer args known => exact ⟨still.panes, still.size, still.bells⟩
  | handlers => exact still
  | register registered =>
      rw [transport_register registered]
      exact still
  | pageSize => exact still
  | release => exact still
  | notice may noticed => exact .noticed joined may (across ▸ noticed)

end Step

/-! ### Taking a message -/

section Taking

variable {now : Moment (Rpc η) σ}

theorem takeEvent_endpoint {ep ep' : Endpoint} {rung : Bool}
    (across : now.self.transport = .endpoint ep)
    (event : ep.takeEvent now.scene.machine = (rung, ep')) :
    onTransport Transport.takeEvent now =
      .ok rung { now with self := { now.self with transport := .endpoint ep' } } := by
  have ran : (onTransport Transport.takeEvent : Task (Rpc η) σ Bool) now =
      .ok (ep.takeEvent now.scene.machine).1 { now with
        self := { now.self with transport := .endpoint (ep.takeEvent now.scene.machine).2 } } := by
    unfold Transport.takeEvent
    rw [onTransport_self_bind, across]
    rfl
  rw [ran, event]

theorem takeEvent_slots {chan : SlotChannel} {rung : Bool} {m : Machine}
    (across : now.self.transport = .slots chan)
    (taken : chan.takeNotification now.scene.machine = .ok (rung, m)) :
    onTransport Transport.takeEvent now =
      .ok rung { now with scene := { now.scene with machine := m } } := by
  unfold Transport.takeEvent
  rw [onTransport_self_bind, across]
  simp only
  rw [onTransport_onMachine]
  exact Task.onMachine_ok taken

variable [Handler η σ] {terms : Terms σ} {oldest : Message}

/-- The oldest message in the panes is taken. -/
theorem leads_receive_slots {peer chan : SlotChannel} {words : List UInt64}
    {toUs toPeer : List (List UInt64)} (across : now.self.transport = .slots chan)
    (joined : SlotChannel.Joined now.scene.machine.memory peer chan (words :: toUs) toPeer) :
    Leads terms (onTransport Transport.receive) .free now
      (fun taken events last _ => taken = some (.ofWords words) ∧
        events = [.received (.ofWords words)] ∧ last = .serving (.ofWords words))
      fun _ events last _ => events = [.received (.ofWords words)] ∧ last = .spoiled := by
  unfold Leads Transport.receive
  rw [onTransport_self_bind, across]
  simp only
  rw [onTransport_machine_bind]
  have ran : chan.receive chan.payloadWords now.scene.machine =
      .ok (some words, chan.afterReceive now.scene.machine) := by
    have whole : words.take chan.payloadWords = words :=
      List.take_of_length_le (Nat.le_of_eq (joined.carriesB.length_of_mem List.mem_cons_self))
    rw [SlotChannel.receive_cons joined, whole]
  simp only [ran, Task.orPanic_ok, pure_bind]
  rw [onTransport_setMachine_bind, onTransport_setSelf_bind]
  have takes : Deal terms.calls terms.notices ⟨.free, now.self, now.scene.machine⟩
      [.received (.ofWords words)] ⟨.serving (.ofWords words), { now.self with
        transport := .slots (chan.afterReceive now.scene.machine).1 },
        (chan.afterReceive now.scene.machine).2⟩ :=
    .take (by rw [across]; exact .slots ran) (.serve _)
  exact leads_deal takes (leads_pure ⟨rfl, rfl, rfl⟩)

/-- Whatever comes of the message that was received, it is the only one that is taken. -/
theorem leads_serveOne_of_receive (wanders : Wanders η terms.asides)
    (received : Leads terms (onTransport Transport.receive) .free now
      (fun taken events last _ => taken = some oldest ∧ events = [.received oldest] ∧
        last = .serving oldest)
      fun _ events last _ => events = [.received oldest] ∧ last = .spoiled) :
    Leads terms serveOne .free now
      (fun outcome events last _ => (outcome ≠ .idle ∧ receivedIn events = [oldest]) ∧ last = .free)
      fun _ events last _ => receivedIn events = [oldest] ∧ last = .free := by
  rw [serveOne_eq]
  refine Leads.released (leads_bind (received.mono ?_ ?_))
  · rintro taken events last mid ⟨rfl, rfl, rfl⟩
    refine (leads_treat wanders oldest mid).mono ?_ ?_
    · rintro outcome more last now' ⟨silent, busy, rfl⟩
      exact ⟨⟨busy, by rw [receivedIn_append, silent]; rfl⟩, rfl⟩
    · rintro e more last now' ⟨silent, rfl⟩
      exact ⟨releasable_free _, by rw [receivedIn_append, silent]; rfl, rfl⟩
  · rintro e events last mid ⟨rfl, rfl⟩
    exact ⟨releasable_spoiled _, rfl, rfl⟩

end Taking

/-! ### What has arrived -/

/-- One step, with all that has arrived for the party before and after it. -/
inductive Arriving (brings : Scene σ → List Message → Scene σ → Prop)
    (calls : MessageType → List Value → Prop) (notices : Prop) :
    Stage η σ × List Message → List Event → Stage η σ × List Message → Prop
  /-- The others act once. -/
  | pass {phase : Phase} {now now' : Moment (Rpc η) σ} {arrived new : List Message}
      (paused : Task.pause now = .ok () now') (brought : brings now.scene new now'.scene) :
      Arriving brings calls notices ((phase, now), arrived) [] ((phase, now'), arrived ++ new)
  /-- A handler of the party acts. -/
  | aside {phase : Phase} {now : Moment (Rpc η) σ} {scene : Scene σ} {arrived new : List Message}
      (brought : brings now.scene new scene) :
      Arriving brings calls notices ((phase, now), arrived) []
        ((phase, { now with scene }), arrived ++ new)
  /-- The party acts. -/
  | deal {phase phase' : Phase} {now : Moment (Rpc η) σ} {rpc : Rpc η} {m : Machine}
      {events : List Event} {arrived : List Message}
      (deal : Deal calls notices ⟨phase, now.self, now.scene.machine⟩ events ⟨phase', rpc, m⟩) :
      Arriving brings calls notices ((phase, now), arrived) events
        ((phase', { now with self := rpc, scene := { now.scene with machine := m } }),
          arrived ++ now.self.transport.echoed events)

/-- The terms of a party among others who bring messages. -/
def amidst (brings : Scene σ → List Message → Scene σ → Prop)
    (calls : MessageType → List Value → Prop) (notices : Prop) : Terms σ :=
  ⟨calls, fun scene scene' => ∃ new, brings scene new scene', notices⟩

section Arriving

variable {brings : Scene σ → List Message → Scene σ → Prop}
  {calls : MessageType → List Value → Prop} {notices : Prop}

/-- Wherever a party gets among others who bring messages, what arrives on the way can be
told. -/
theorem traced_of_course {stage stage' : Stage η σ} {events : List Event}
    (course : Course (amidst brings calls notices) stage events stage')
    (lawful : ∀ turn ∈ stage.2.turns, Turn.Follows (amidst brings calls notices).asides turn)
    (arrived : List Message) :
    (∀ turn ∈ stage'.2.turns, Turn.Follows (amidst brings calls notices).asides turn) ∧
      ∃ arrived',
        Traced (Arriving brings calls notices) (stage, arrived) events (stage', arrived') := by
  induction course with
  | nil => exact ⟨lawful, arrived, .nil _⟩
  | next _ last ih =>
      obtain ⟨lawful, arrived', trace⟩ := ih
      cases last with
      | @pass phase now _ paused =>
          obtain ⟨scene, rest, rfl, ⟨new, brought⟩, later⟩ := Task.follows_of_pause paused lawful
          exact ⟨later, _, trace.next (.pass paused brought)⟩
      | aside may =>
          obtain ⟨new, brought⟩ := may
          exact ⟨lawful, _, trace.next (.aside brought)⟩
      | deal deal => exact ⟨lawful, _, trace.next (.deal deal)⟩

/-- Nothing that has arrived is forgotten. -/
theorem arrived_of_traced {before after : Stage η σ × List Message} {events : List Event}
    (trace : Traced (Arriving brings calls notices) before events after) :
    ∃ new, after.2 = before.2 ++ new := by
  induction trace with
  | nil => exact ⟨[], (List.append_nil _).symm⟩
  | next _ last ih =>
      obtain ⟨earlier, same⟩ := ih
      have longer : ∀ new, ∃ all, _ ++ new = before.2 ++ all := fun new =>
        ⟨earlier ++ new, (congrArg (· ++ new) same).trans (List.append_assoc ..)⟩
      cases last with
      | pass => exact longer _
      | aside => exact longer _
      | deal => exact longer _

end Arriving

end Rpc

end Conduit

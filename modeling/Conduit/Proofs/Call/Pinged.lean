/-
# Messages that a bell announces

A party over shared memory may ask to be notified by a bell, which its peer rings after each
message. The bell remembers that it was rung and not how often, and a dispatch takes it
before it takes one message. So a ring that finds the bell rung announces nothing: its
message, or one before it, is left to the next notification.

A ledger of the channel (`Ledger`) is kept beside the others: what the peer sent, and how
many of its rings found the bell rung. Whatever happens, the messages that were taken, those
rings, and the notification that is still there are together as many as were sent
(`Announced`), so a dispatch answers that the party is idle while as many messages wait as
rings found the bell rung.
-/

import Conduit.Proofs.Call.Inbox

namespace Conduit

theorem Bells.get_ring {bells : Bells} {bell : BellId} (known : bell.number < bells.all.size) :
    (bells.ring bell).get bell = (bells.get bell).ring := by
  simp [get, ring, Array.getD_eq_getD_getElem?, known, Array.getElem_modify]

theorem Bells.get_take (bells : Bells) (bell : BellId) :
    (bells.take bell).2.get bell = (bells.get bell).take.2 := by
  by_cases known : bell.number < bells.all.size
  · simp [get, take, Array.getD_eq_getD_getElem?, known, Array.getElem_modify]
  · simp [get, take, Array.getD_eq_getD_getElem?, known, Bell.take]

/-- Taking a bell that was not rung does nothing. -/
theorem Bells.take_quiet {bells : Bells} {bell : BellId}
    (quiet : (bells.get bell).pending = false) : bells.take bell = (false, bells) := by
  have same : bells.all.modify bell.number (fun b => b.take.2) = bells.all := by
    apply Array.ext
    · exact Array.size_modify
    · intro i _ known
      rw [Array.getElem_modify]
      split
      case isFalse => rfl
      case isTrue here =>
        subst here
        have unrung : bells.all[bell.number].pending = false := by
          simpa [get, Array.getD_eq_getD_getElem?, known] using quiet
        cases held : bells.all[bell.number]
        simp_all [Bell.take]
  unfold take
  rw [quiet, same]

namespace Rpc

variable {η σ : Type}

/-- What is noted of a channel on the side of the peer. -/
structure Ledger where
  /-- The end of the peer. -/
  chan : SlotChannel
  /-- All messages that the peer has sent, the oldest first. -/
  sent : List Message := []
  /-- How many of its rings found the bell rung. -/
  merged : Nat := 0

/-- The ledger after one more message, whose ring finds the bell like this. -/
def Ledger.post (ledger : Ledger) (chan : SlotChannel) (payload : List UInt64) (bell : Bell) :
    Ledger where
  chan := chan
  sent := ledger.sent ++ [.ofWords (SlotChannel.pad ledger.chan.payloadWords payload)]
  merged := ledger.merged + bell.pending.toNat

/-- The peer sends or takes a message, or something is done elsewhere. -/
inductive PeerActs (bell : BellId) (ledger : σ → Ledger) : Scene σ → Scene σ → Prop
  | sends {scene scene' : Scene σ} {payload : List UInt64} {chan : SlotChannel}
      (sent : (ledger scene.others).chan.send payload scene.machine =
        .ok (.ok true, chan, scene'.machine))
      (noted : ledger scene'.others =
        (ledger scene.others).post chan payload (scene.machine.bells.get bell)) :
      PeerActs bell ledger scene scene'
  | takes {scene scene' : Scene σ} {limit : Nat} {found : Option (List UInt64)}
      {chan : SlotChannel} (taken : (ledger scene.others).chan.receive limit scene.machine =
        .ok (found, chan, scene'.machine))
      (noted : ledger scene'.others = { ledger scene.others with chan }) :
      PeerActs bell ledger scene scene'
  /-- The panes show what they showed, and the bell is left alone. -/
  | elsewhere {scene scene' : Scene σ}
      (panes : ∀ chan toUs toPeer,
        SlotChannel.Joined scene.machine.memory (ledger scene.others).chan chan toUs toPeer →
        SlotChannel.Joined scene'.machine.memory (ledger scene.others).chan chan toUs toPeer)
      (size : scene'.machine.bells.all.size = scene.machine.bells.all.size)
      (bells : scene'.machine.bells.get bell = scene.machine.bells.get bell)
      (noted : ledger scene'.others = ledger scene.others) : PeerActs bell ledger scene scene'

/-- They do any number of things. -/
abbrev PeerRuns (bell : BellId) (ledger : σ → Ledger) : Scene σ → Scene σ → Prop :=
  Relation.ReflTransGen (PeerActs bell ledger)

/-- So many messages were taken from a channel that a bell announces, and so many
notifications. -/
structure Announced (bell : BellId) (ledger : Ledger) (taken noticed : Nat)
    (transport : Transport) (m : Machine) : Prop where
  /-- What waits is what was sent less what was taken. -/
  panes : ∃ chan toUs toPeer, transport = .slots chan ∧ chan.localBell = some bell ∧
    chan.remoteBell ≠ some bell ∧ SlotChannel.Joined m.memory ledger.chan chan toUs toPeer ∧
    toUs.map Message.ofWords = ledger.sent.drop taken
  taken_le : taken ≤ ledger.sent.length
  /-- The peer rings the bell. -/
  rings : ledger.chan.remoteBell = some bell
  known : bell.number < m.bells.all.size
  /-- Each ring was noticed, or found the bell rung, or is still to be noticed. -/
  count : noticed + ledger.merged + (m.bells.get bell).pending.toNat = ledger.sent.length

namespace Announced

variable {bell : BellId} {ledger : σ → Ledger} {taken noticed : Nat} {transport : Transport}
  {scene scene' : Scene σ}

theorem acts
    (announced : Announced bell (ledger scene.others) taken noticed transport scene.machine)
    (acts : PeerActs bell ledger scene scene') :
    Announced bell (ledger scene'.others) taken noticed transport scene'.machine := by
  obtain ⟨chan, toUs, toPeer, rfl, own, apart, joined, waits⟩ := announced.panes
  have before := announced.taken_le
  have count := announced.count
  cases acts with
  | @sends payload _ sent noted =>
      obtain ⟨space, rfl, machine⟩ := eq_of_send_filled joined sent
      have rung : scene'.machine.bells.get bell = (scene.machine.bells.get bell).ring := by
        have announce : scene'.machine.bells = scene.machine.bells.ring bell := by
          rw [machine]
          simp only [SlotChannel.afterSend, SlotChannel.announce, announced.rings]
        rw [announce, Bells.get_ring announced.known]
      rw [noted]
      refine ⟨⟨chan, _, toPeer, rfl, own, apart, machine ▸ joined.afterSend _ space, ?_⟩, ?_,
        announced.rings, ?_, ?_⟩
      · rw [List.map_append, waits, Ledger.post, List.drop_append_of_le_length before]
        rfl
      · rw [Ledger.post, List.length_append]
        exact Nat.le_add_right_of_le before
      · rw [machine]
        exact Nat.lt_of_lt_of_eq announced.known (SlotChannel.size_announce _ _).symm
      · rw [rung]
        simp only [Ledger.post, Bell.ring, List.length_append, List.length_singleton,
          Bool.toNat_true]
        omega
  | takes received noted =>
      rw [noted]
      cases toPeer with
      | nil =>
          rw [SlotChannel.receive_nil joined.symm] at received
          simp only [Except.ok.injEq, Prod.mk.injEq] at received
          obtain ⟨-, rfl, same⟩ := received
          rw [← same]
          exact announced
      | cons words rest =>
          rw [SlotChannel.receive_cons joined.symm] at received
          simp only [SlotChannel.afterReceive, Except.ok.injEq, Prod.mk.injEq] at received
          obtain ⟨-, rfl, same⟩ := received
          rw [← same]
          exact ⟨⟨chan, toUs, rest, rfl, own, apart, joined.symm.afterReceive.symm, waits⟩, before,
            announced.rings, announced.known, count⟩
  | elsewhere panes size bells noted =>
      rw [noted]
      exact ⟨⟨chan, toUs, toPeer, rfl, own, apart, panes _ _ _ joined, waits⟩, before,
        announced.rings, size ▸ announced.known, bells ▸ count⟩

theorem runs
    (announced : Announced bell (ledger scene.others) taken noticed transport scene.machine)
    (runs : PeerRuns bell ledger scene scene') :
    Announced bell (ledger scene'.others) taken noticed transport scene'.machine := by
  induction runs with
  | refl => exact announced
  | tail _ acts ih => exact ih.acts acts

/-- A step of the party that leaves the bell alone. -/
theorem deal {calls : MessageType → List Value → Prop} {s s' : Seat η} {events : List Event}
    {noted : Ledger} (announced : Announced bell noted taken noticed s.rpc.transport s.machine)
    (deal : Deal calls False s events s') :
    Announced bell noted (taken + (receivedIn events).length) noticed s'.rpc.transport
      s'.machine := by
  obtain ⟨chan, toUs, toPeer, across, own, apart, joined, waits⟩ := announced.panes
  obtain ⟨⟨chan', toUs', toPeer', across', own', remote, joined', queue⟩, size, bells⟩ :=
    passed_of_deal across joined deal
  have same := bells bell apart False.elim
  have before := announced.taken_le
  rw [waits] at queue
  refine ⟨⟨chan', toUs', toPeer', across', own'.trans own, remote ▸ apart, joined', ?_⟩, ?_,
    announced.rings, size ▸ announced.known, same ▸ announced.count⟩
  · rw [← List.drop_drop, ← queue, List.drop_left]
  · have length := congrArg List.length queue
    rw [List.length_append, List.length_drop] at length
    omega

end Announced

/-- A party beside others who do no more than this, and whose handlers do no more either. -/
def beside (bell : BellId) (ledger : σ → Ledger) : Terms σ :=
  ⟨fun _ _ => True, PeerRuns bell ledger, False⟩

/-! ### A new channel -/

/-- Nothing was sent over a new channel, whose two ends agree on a bell that was not rung. -/
theorem announced_of_overHalves {memory : Memory} {m : Machine} {bytes slotBytes : Nat} {v : View}
    {a b chan : SlotChannel} {bell : BellId}
    (allocated : memory.allocate bytes = .ok (v, m.memory))
    (first : SlotChannel.overHalves v slotBytes true = .ok a)
    (second : SlotChannel.overHalves v slotBytes false = .ok b)
    (notified : b.notifyLocal bell = .ok chan) (known : bell.number < m.bells.all.size)
    (quiet : (m.bells.get bell).pending = false) :
    Announced bell { chan := a.notifyRemote bell } 0 0 (.slots chan) m := by
  cases slotted_overHalves allocated first second with
  | intro joined _ _ _ polled =>
      simp only [SlotChannel.notifyLocal, polled.here, Except.ok.injEq] at notified
      subst notified
      refine ⟨⟨_, [], [], rfl, rfl, ?_, ?_, rfl⟩, Nat.le_refl 0, rfl, known, by rw [quiet]; rfl⟩
      · intro same
        cases polled.there.symm.trans same
      · exact { joined with }

/-! ### Dispatching -/

section Dispatching

variable {bell : BellId} {ledger : σ → Ledger} {taken noticed : Nat}

/-- Wherever a party gets that leaves the bell alone. -/
theorem Announced.course {stage stage' : Stage η σ} {events : List Event}
    (announced : Announced bell (ledger stage.2.scene.others) taken noticed
      stage.2.self.transport stage.2.scene.machine)
    (course : Course (beside bell ledger) stage events stage')
    (lawful : ∀ turn ∈ stage.2.turns, Turn.Follows (PeerRuns bell ledger) turn) :
    (∀ turn ∈ stage'.2.turns, Turn.Follows (PeerRuns bell ledger) turn) ∧
      Announced bell (ledger stage'.2.scene.others) (taken + (receivedIn events).length) noticed
        stage'.2.self.transport stage'.2.scene.machine := by
  induction course with
  | nil => exact ⟨lawful, announced⟩
  | next _ last ih =>
      obtain ⟨lawful, announced⟩ := ih
      rw [receivedIn_append, List.length_append, ← Nat.add_assoc]
      cases last with
      | @pass phase now _ paused =>
          obtain ⟨scene, rest, rfl, follows, later⟩ := Task.follows_of_pause paused lawful
          exact ⟨later, announced.runs follows⟩
      | aside may => exact ⟨lawful, announced.runs may⟩
      | deal deal => exact ⟨lawful, announced.deal deal⟩

variable [Handler η σ] {now : Moment (Rpc η) σ}

/-- A party whose bell was not rung does nothing. -/
theorem dispatchPending_unrung (announced : Announced bell (ledger now.scene.others) taken noticed
      now.self.transport now.scene.machine)
    (quiet : (now.scene.machine.bells.get bell).pending = false) :
    dispatchPending now = .ok .idle now := by
  obtain ⟨chan, toUs, toPeer, across, own, -⟩ := announced.panes
  have none : chan.takeNotification now.scene.machine = .ok (false, now.scene.machine) := by
    simp only [SlotChannel.takeNotification, own, Bells.take_quiet quiet]
  unfold dispatchPending
  rw [Task.bind_ok (takeEvent_slots across none)]
  rfl

/-- Over shared memory nothing is asked for after a message was served. -/
theorem leads_onMessage_slots {terms : Terms σ} {P : Except Error Dispatch → List Event → Prop}
    (serves : Leads terms serveOne .free now
      (fun outcome events last now' => P (.ok outcome) events ∧ last = .free ∧
        now'.self.transport.isEndpoint = false)
      fun e events last now' => P (.error e) events ∧ last = .free ∧
        now'.self.transport.isEndpoint = false) :
    Leads terms onMessage .free now
      (fun outcome events last _ => P (.ok outcome) events ∧ last = .free)
      fun e events last _ => P (.error e) events ∧ last = .free := by
  have later : ∀ (outcome : Except Error Dispatch) (events : List Event) (mid : Moment (Rpc η) σ),
      P outcome events → mid.self.transport.isEndpoint = false →
      Leads terms (do
        let _ ← Task.settle (onTransport Transport.rearm)
        Task.ofExcept outcome) .free mid
      (fun dispatch more last _ => P (.ok dispatch) (events ++ more) ∧ last = .free)
      fun e more last _ => P (.error e) (events ++ more) ∧ last = .free := by
    intro outcome events mid served across
    have rearmed : (onTransport Transport.rearm : Task (Rpc η) σ Unit) mid = .ok () mid := by
      unfold Transport.rearm
      rw [onTransport_self_bind]
      cases transport : mid.self.transport with
      | endpoint ep =>
          rw [transport] at across
          cases across
      | slots chan => rfl
    unfold Leads
    rw [Task.bind_ok (Task.settle_ok rearmed)]
    refine leads_ofExcept ?_ ?_
    · rintro dispatch rfl
      exact ⟨by simpa using served, rfl⟩
    · rintro e rfl
      exact ⟨by simpa using served, rfl⟩
  refine leads_bind (leads_settle (serves.mono ?_ ?_))
  · rintro dispatch events last mid ⟨served, rfl, across⟩
    exact later (.ok dispatch) events mid served across
  · rintro e events last mid ⟨served, rfl, across⟩
    exact later (.error e) events mid served across

/-- The party has noticed that its bell was rung. -/
def notice (bell : BellId) (now : Moment (Rpc η) σ) : Moment (Rpc η) σ :=
  { now with scene := { now.scene with
      machine := { now.scene.machine with bells := (now.scene.machine.bells.take bell).2 } } }

omit [Handler η σ] in
/-- One more notification was taken, and the bell is no longer rung. -/
theorem Announced.noticing {noticed : Nat}
    (announced : Announced bell (ledger now.scene.others) taken noticed now.self.transport
      now.scene.machine)
    (rung : (now.scene.machine.bells.get bell).pending = true) :
    Announced bell (ledger (notice bell now).scene.others) taken (noticed + 1)
      (notice bell now).self.transport (notice bell now).scene.machine where
  panes := announced.panes
  taken_le := announced.taken_le
  rings := announced.rings
  known := Nat.lt_of_lt_of_eq announced.known (Bells.size_take _ _).symm
  count := by
    have count := announced.count
    rw [rung, Bool.toNat_true] at count
    change _ + _ + ((now.scene.machine.bells.take bell).2.get bell).pending.toNat = _
    rw [Bells.get_take]
    simp only [Bell.take, Bool.toNat_false, notice]
    omega

/-- Where the bell was rung, a dispatch notices that and looks for a message. -/
theorem dispatchPending_eq_of_rung {noticed : Nat}
    (announced : Announced bell (ledger now.scene.others) taken noticed now.self.transport
      now.scene.machine)
    (rung : (now.scene.machine.bells.get bell).pending = true) :
    dispatchPending now = onMessage (notice bell now) := by
  obtain ⟨chan, toUs, toPeer, across, own, -⟩ := announced.panes
  have event : chan.takeNotification now.scene.machine =
      .ok (true, (notice bell now).scene.machine) := by
    simp only [SlotChannel.takeNotification, own, Bells.take, rung, notice]
  unfold dispatchPending
  rw [Task.bind_ok (takeEvent_slots across event)]
  rfl

/-- Once it has noticed, the party takes this message and no other. -/
def Fetches (bell : BellId) (ledger : σ → Ledger) (now after : Moment (Rpc η) σ)
    (message : Message) : Prop :=
  ∃ events, Course (beside bell ledger) (.free, notice bell now) events (.free, after) ∧
    receivedIn events = [message]

/-- A party whose bell was rung takes the oldest message and no other, whatever comes of it. -/
theorem dispatchPending_rung (wanders : Wanders η (PeerRuns bell ledger))
    (announced : Announced bell (ledger now.scene.others) taken taken now.self.transport
      now.scene.machine)
    (rung : (now.scene.machine.bells.get bell).pending = true)
    (lawful : ∀ turn ∈ now.turns, Turn.Follows (PeerRuns bell ledger) turn)
    {outcome : Except Error Dispatch} {after : Moment (Rpc η) σ}
    (completed : Task.settle dispatchPending now = .ok outcome after) :
    outcome ≠ .ok .idle ∧
      (∃ message, (ledger now.scene.others).sent[taken]? = some message ∧
        Fetches bell ledger now after message) ∧
      Announced bell (ledger after.scene.others) (taken + 1) (taken + 1) after.self.transport
        after.scene.machine := by
  obtain ⟨chan, toUs, toPeer, across, own, apart, joined, waits⟩ := announced.panes
  have count := announced.count
  rw [rung, Bool.toNat_true] at count
  cases toUs with
  | nil =>
      have none := congrArg List.length waits
      simp only [List.map_nil, List.length_nil, List.length_drop] at none
      omega
  | cons words rest =>
      have oldest : (ledger now.scene.others).sent[taken]? = some (.ofWords words) := by
        rw [← List.head?_drop, ← waits]
        rfl
      have noticed := announced.noticing rung
      have serves : Leads (beside bell ledger) serveOne .free (notice bell now) _ _ :=
        leads_serveOne_of_receive wanders (leads_receive_slots across joined)
      have across' : ∀ {events : List Event} {last : Phase} {now' : Moment (Rpc η) σ},
          Course (beside bell ledger) (.free, notice bell now) events (last, now') →
          now'.self.transport.isEndpoint = false := by
        intro events last now' course
        obtain ⟨-, there⟩ := noticed.course course lawful
        obtain ⟨_, _, _, across', -⟩ := there.panes
        rw [across']
        rfl
      have served : Leads (beside bell ledger) onMessage .free (notice bell now) _ _ :=
        leads_onMessage_slots (P := fun outcome events =>
          outcome ≠ .ok .idle ∧ receivedIn events = [.ofWords words]) (serves.coursed.mono ?_ ?_)
      · have ran : Task.settle onMessage (notice bell now) = .ok outcome after := by
          unfold Task.settle at completed ⊢
          rwa [← dispatchPending_eq_of_rung announced rung]
        have ends : outcome ≠ .ok .idle ∧ Fetches bell ledger now after (.ofWords words) := by
          rcases Task.Ends.settled served ran with
            ⟨dispatch, rfl, events, last, course, ⟨busy, took⟩, rfl⟩ |
            ⟨e, rfl, events, last, course, ⟨busy, took⟩, rfl⟩
          · exact ⟨busy, events, course, took⟩
          · exact ⟨busy, events, course, took⟩
        obtain ⟨busy, events, course, took⟩ := ends
        obtain ⟨-, later⟩ := noticed.course course lawful
        rw [took] at later
        exact ⟨busy, ⟨_, oldest, events, course, took⟩, later⟩
      · rintro dispatch events last now' ⟨course, ⟨busy, took⟩, rfl⟩
        exact ⟨⟨fun same => busy (Except.ok.inj same), took⟩, rfl, across' course⟩
      · rintro e events last now' ⟨course, took, rfl⟩
        exact ⟨⟨fun same => (by cases same), took⟩, rfl, across' course⟩

end Dispatching

/-! ### Histories -/

/-- A party is notified of messages by a bell, which its peer rings from the first message on.
Whatever it does with this channel is to dispatch, and so many messages were taken. -/
inductive Attended [Handler η σ] (bell : BellId) (ledger : σ → Ledger) :
    Nat → Rpc η → Scene σ → Prop
  | start {rpc : Rpc η} {scene : Scene σ}
      (announced : Announced bell (ledger scene.others) 0 0 rpc.transport scene.machine)
      (unsent : (ledger scene.others).sent = []) : Attended bell ledger 0 rpc scene
  /-- The others act. -/
  | others {taken : Nat} {rpc : Rpc η} {scene scene' : Scene σ}
      (attended : Attended bell ledger taken rpc scene)
      (runs : PeerRuns bell ledger scene scene') : Attended bell ledger taken rpc scene'
  /-- The party does something that leaves the channel alone. -/
  | configure {taken : Nat} {rpc rpc' : Rpc η} {scene : Scene σ}
      (attended : Attended bell ledger taken rpc scene)
      (same : rpc'.transport = rpc.transport) : Attended bell ledger taken rpc' scene
  /-- A dispatch answers that the party is idle. -/
  | idle {taken : Nat} {rpc : Rpc η} {scene : Scene σ} {turns : List (Turn σ)}
      {after : Moment (Rpc η) σ} (attended : Attended bell ledger taken rpc scene)
      (lawful : ∀ turn ∈ turns, Turn.Follows (PeerRuns bell ledger) turn)
      (answered : dispatchPending ⟨rpc, scene, turns⟩ = .ok .idle after) :
      Attended bell ledger taken after.self after.scene
  /-- A dispatch ends in any other way. -/
  | busy {taken : Nat} {rpc : Rpc η} {scene : Scene σ} {turns : List (Turn σ)}
      {outcome : Except Error Dispatch} {after : Moment (Rpc η) σ}
      (attended : Attended bell ledger taken rpc scene)
      (lawful : ∀ turn ∈ turns, Turn.Follows (PeerRuns bell ledger) turn)
      (completed : Task.settle dispatchPending ⟨rpc, scene, turns⟩ = .ok outcome after)
      (busy : outcome ≠ .ok .idle) : Attended bell ledger (taken + 1) after.self after.scene

section Histories

variable [Handler η σ] {bell : BellId} {ledger : σ → Ledger} {taken : Nat} {rpc : Rpc η}
  {scene : Scene σ}

/-- Whether a dispatch is idle or not is told by the bell. -/
theorem Attended.announced (wanders : Wanders η (PeerRuns bell ledger))
    (attended : Attended bell ledger taken rpc scene) :
    Announced bell (ledger scene.others) taken taken rpc.transport scene.machine := by
  induction attended with
  | start announced => exact announced
  | others _ runs ih => exact ih.runs runs
  | configure _ same ih =>
      rw [same]
      exact ih
  | @idle _ rpc scene turns after _ lawful answered ih =>
      cases rung : (scene.machine.bells.get bell).pending with
      | false =>
          have still : dispatchPending ⟨rpc, scene, turns⟩ = .ok .idle ⟨rpc, scene, turns⟩ :=
            dispatchPending_unrung ih rung
          cases still.symm.trans answered
          exact ih
      | true =>
          exact absurd rfl (dispatchPending_rung wanders ih rung lawful (Task.settle_ok answered)).1
  | @busy _ rpc scene turns outcome after _ lawful completed busy ih =>
      cases rung : (scene.machine.bells.get bell).pending with
      | false =>
          have still : dispatchPending ⟨rpc, scene, turns⟩ = .ok .idle ⟨rpc, scene, turns⟩ :=
            dispatchPending_unrung ih rung
          cases (Task.settle_ok still).symm.trans completed
          exact absurd rfl busy
      | true => exact (dispatchPending_rung wanders ih rung lawful completed).2.2

/-- What dispatching does where the peer sent this and so many messages were taken. -/
structure Heeds (bell : BellId) (ledger : σ → Ledger) (taken : Nat) (now : Moment (Rpc η) σ) :
    Prop where
  /-- A dispatch answers that the party is idle exactly if no more messages were sent than were
  taken and than rings found the bell rung. -/
  idle : (∃ now', dispatchPending now = .ok .idle now') ↔
    (ledger now.scene.others).sent.length = taken + (ledger now.scene.others).merged
  /-- Then it does nothing. -/
  still : (ledger now.scene.others).sent.length = taken + (ledger now.scene.others).merged →
    dispatchPending now = .ok .idle now
  /-- As many messages wait then as rings found the bell rung. -/
  left : (∃ now', dispatchPending now = .ok .idle now') →
    ((ledger now.scene.others).sent.drop taken).length = (ledger now.scene.others).merged
  /-- Otherwise it takes the oldest message and no other. -/
  oldest : ∀ outcome after, Task.settle dispatchPending now = .ok outcome after →
    outcome ≠ .ok .idle → ∃ message, (ledger now.scene.others).sent[taken]? = some message ∧
      Fetches bell ledger now after message

/-- However sends and dispatches alternate: the messages that wait are those that were sent
and not taken, a dispatch takes the oldest of them, and when one answers that the party is
idle, as many messages wait as rings found the bell rung. -/
theorem idle_iff_merged (wanders : Wanders η (PeerRuns bell ledger))
    (attended : Attended bell ledger taken rpc scene) :
    (∃ chan toUs toPeer, rpc.transport = .slots chan ∧
      SlotChannel.Joined scene.machine.memory (ledger scene.others).chan chan toUs toPeer ∧
      toUs.map Message.ofWords = (ledger scene.others).sent.drop taken) ∧
    ∀ turns, (∀ turn ∈ turns, Turn.Follows (PeerRuns bell ledger) turn) →
      Heeds bell ledger taken ⟨rpc, scene, turns⟩ := by
  have announced := attended.announced wanders
  have count := announced.count
  refine ⟨?_, ?_⟩
  · obtain ⟨chan, toUs, toPeer, across, -, -, joined, waits⟩ := announced.panes
    exact ⟨chan, toUs, toPeer, across, joined, waits⟩
  intro turns lawful
  cases rung : (scene.machine.bells.get bell).pending with
  | false =>
      have idle : dispatchPending ⟨rpc, scene, turns⟩ = .ok .idle ⟨rpc, scene, turns⟩ :=
        dispatchPending_unrung announced rung
      rw [rung] at count
      refine ⟨⟨fun _ => count.symm, fun _ => ⟨_, idle⟩⟩, fun _ => idle, ?_, ?_⟩
      · intro _
        rw [List.length_drop, ← count]
        exact Nat.add_sub_cancel_left taken _
      · intro outcome after completed busy
        cases (Task.settle_ok idle).symm.trans completed
        exact absurd rfl busy
  | true =>
      rw [rung, Bool.toNat_true] at count
      have more : (ledger scene.others).sent.length ≠ taken + (ledger scene.others).merged := by
        omega
      have rings {outcome : Except Error Dispatch} {after : Moment (Rpc η) σ} :=
        @dispatchPending_rung η σ bell ledger taken _ ⟨rpc, scene, turns⟩ wanders announced rung
          lawful outcome after
      have busy : ¬ ∃ now', dispatchPending ⟨rpc, scene, turns⟩ = .ok .idle now' := by
        rintro ⟨now', answered⟩
        exact (rings (Task.settle_ok answered)).1 rfl
      refine ⟨⟨fun idle => absurd idle busy, fun same => absurd same more⟩,
        fun same => absurd same more, fun idle => absurd idle busy, ?_⟩
      intro outcome after completed _
      exact (rings completed).2.1

end Histories

/-! ### Two messages before the first dispatch -/

/-- The peer sends a message. -/
def Ledger.sending (bell : BellId) (payload : List UInt64) (scene : Scene Ledger) :
    Scene Ledger where
  machine := (scene.others.chan.afterSend payload scene.machine).2
  others := scene.others.post (scene.others.chan.afterSend payload scene.machine).1 payload
    (scene.machine.bells.get bell)

theorem Announced.sending {bell : BellId} {scene : Scene Ledger} {transport : Transport}
    {noticed : Nat} (payload : List UInt64)
    (announced : Announced bell scene.others 0 noticed transport scene.machine)
    (fits : payload.length ≤ scene.others.chan.payloadWords)
    (space : scene.others.sent.length < scene.others.chan.slots) :
    PeerActs bell id scene (Ledger.sending bell payload scene) := by
  obtain ⟨chan, toUs, toPeer, -, -, -, joined, waits⟩ := announced.panes
  have count := congrArg List.length waits
  rw [List.length_map, List.drop_zero] at count
  exact .sends (SlotChannel.send_space joined fits (count ▸ space)) rfl

/-- One end of a channel with two slots of one word in each direction. -/
def twoSlots (send recv : Nat) : SlotChannel :=
  { sendPane := ⟨0, send, 4⟩, recvPane := ⟨0, recv, 4⟩, slotWords := 2, slots := 2 }

/-- A party that a bell notifies. -/
def heedful : Rpc Tally := create (.slots { twoSlots 4 0 with localBell := some ⟨0⟩ })

/-- Its peer, which has sent nothing. -/
def silence : Scene Ledger where
  machine := { Machine.create 1 with
    memory := { blocks := #[Array.replicate 8 0] }
    bells := ⟨#[{}]⟩ }
  others := { chan := (twoSlots 0 4).notifyRemote ⟨0⟩ }

/-- The peer has sent two messages. -/
def twice : Scene Ledger := Ledger.sending ⟨0⟩ [99] (Ledger.sending ⟨0⟩ [99] silence)

theorem attended_twice : Attended ⟨0⟩ id 0 heedful twice := by
  have allocated : ({} : Memory).allocate 64 = .ok (⟨0, 0, 8⟩, silence.machine.memory) := rfl
  have first : SlotChannel.overHalves ⟨0, 0, 8⟩ 16 true = .ok (twoSlots 0 4) := rfl
  have second : SlotChannel.overHalves ⟨0, 0, 8⟩ 16 false = .ok (twoSlots 4 0) := rfl
  have announced : Announced ⟨0⟩ silence.others 0 0 heedful.transport silence.machine :=
    announced_of_overHalves allocated first second rfl (by decide) rfl
  have sent := announced.sending [99] (by decide) (by decide)
  have sent' := (announced.acts sent).sending [99] (by decide) (by decide)
  exact .others (.start announced rfl) (.tail (.single sent) sent')

/-- The first dispatch takes one of them, and what the second answers. -/
theorem attended_once : ∃ after : Moment (Rpc Tally) Ledger,
    Task.settle dispatchPending ⟨heedful, twice, []⟩ = .ok (.error (.unknownBinding ⟨99⟩)) after ∧
    Attended ⟨0⟩ id 1 after.self after.scene ∧ after.scene.others.sent.length = 2 ∧
    after.scene.others.merged = 1 := by
  have ran : (Task.failure? (dispatchPending (⟨heedful, twice, []⟩ : Moment (Rpc Tally) Ledger))).map
      (fun failed => (failed.1, failed.2.scene.others.sent.length, failed.2.scene.others.merged)) =
        some (.unknownBinding ⟨99⟩, 2, 1) := by decide +kernel
  obtain ⟨⟨e, after⟩, failed, same⟩ := Option.map_eq_some_iff.mp ran
  simp only [Prod.mk.injEq] at same
  obtain ⟨rfl, sent, merged⟩ := same
  have completed := Task.settle_failed (Task.failure?_eq_some failed)
  have attended := attended_twice.busy (fun _ mem => absurd mem List.not_mem_nil) completed
    (fun same => by cases same)
  exact ⟨after, completed, attended, sent, merged⟩

/-- The second dispatch answers that the party is idle, and one message is left. -/
theorem idle_iff_merged_twice : ∃ after : Moment (Rpc Tally) Ledger,
    Wanders Tally (PeerRuns ⟨0⟩ (id : Ledger → Ledger)) ∧
    Attended ⟨0⟩ id 1 after.self after.scene ∧
    dispatchPending ⟨after.self, after.scene, []⟩ = .ok .idle ⟨after.self, after.scene, []⟩ ∧
    (after.scene.others.sent.drop 1).length = 1 := by
  obtain ⟨after, -, attended, sent, merged⟩ := attended_once
  have wanders := wanders_tally (PeerRuns ⟨0⟩ (id : Ledger → Ledger))
  obtain ⟨-, heeds⟩ := idle_iff_merged wanders attended
  have heeds := heeds [] fun _ mem => absurd mem List.not_mem_nil
  have idle := heeds.still (by simp [sent, merged])
  exact ⟨after, wanders, attended, idle, (heeds.left ⟨_, idle⟩).trans merged⟩

/-- Two messages are sent, and one is dispatched. The second dispatch answers that the party
is idle while the other message waits. -/
theorem merged_ring_forgets : ∃ (mid : Moment (Rpc Tally) Ledger) (chan : SlotChannel),
    Task.settle dispatchPending ⟨heedful, twice, []⟩ = .ok (.error (.unknownBinding ⟨99⟩)) mid ∧
    dispatchPending ⟨mid.self, mid.scene, []⟩ = .ok .idle ⟨mid.self, mid.scene, []⟩ ∧
    mid.self.transport = .slots chan ∧ chan.canReceive mid.scene.machine = .ok true := by
  obtain ⟨mid, completed, attended, sent, merged⟩ := attended_once
  have announced := attended.announced (wanders_tally _)
  obtain ⟨chan, toUs, toPeer, across, -, -, joined, waits⟩ := announced.panes
  have count := announced.count
  simp only [id, sent, merged] at count
  have quiet : (mid.scene.machine.bells.get ⟨0⟩).pending = false := by
    cases rung : (mid.scene.machine.bells.get ⟨0⟩).pending with
    | false => rfl
    | true => simp [rung] at count
  have waits := congrArg List.length waits
  simp only [id, List.length_map, List.length_drop, sent] at waits
  refine ⟨mid, chan, completed, dispatchPending_unrung announced quiet, across, ?_⟩
  rw [SlotChannel.canReceive_eq joined]
  cases toUs with
  | nil => cases waits
  | cons words rest => rfl

end Rpc

end Conduit

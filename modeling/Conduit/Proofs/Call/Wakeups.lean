/-
# Messages that wait

What waits for a party is a queue that others put messages into while it makes calls,
serves messages, or does nothing. `Inbox` says what waits at either kind of transport; over
a capability channel it also says whether the party will be notified.

Between operations a party is notified of every message that waits (`armed_of_completed`).
Whatever is done, what was taken and what waits is what arrived, in that order
(`Reception.inbox`).
-/

import Conduit.Proofs.Call.Inbox

namespace Conduit

namespace Rpc

variable {η σ α : Type}

/-- Where a party receives: at a capability, or at one end of a channel over shared memory,
whose other end is found among the others. -/
inductive Post (σ : Type) where
  | endpoint (home : Cap)
  | slots (peer : σ → SlotChannel)

/-- The messages that wait for a party, the oldest first. No fault is planned for receiving
and for asking to be notified, and an end of a channel over shared memory has no bell. -/
inductive Inbox : Post σ → Bool → Transport → Scene σ → List Message → Prop
  | endpoint {ep : Endpoint} {scene : Scene σ} {letters : List Letter}
      (receives : scene.machine.Spares ep.home .recv)
      (notifies : scene.machine.Spares ep.home .register)
      (waiting : scene.machine.kernel.waiting ep.home = letters) :
      Inbox (.endpoint ep.home) ep.armed (.endpoint ep) scene (letters.map Letter.message)
  | slots {peer : σ → SlotChannel} {armed : Bool} {chan : SlotChannel} {scene : Scene σ}
      {toPeer toUs : List (List UInt64)} (polled : chan.localBell = none)
      (joined : SlotChannel.Joined scene.machine.memory (peer scene.others) chan toUs toPeer) :
      Inbox (.slots peer) armed (.slots chan) scene (toUs.map Message.ofWords)

theorem Inbox.of_endpoint {ep : Endpoint} {home : Cap} {armed : Bool} {scene : Scene σ}
    {letters : List Letter} (own : ep.home = home) (same : ep.armed = armed)
    (receives : scene.machine.Spares home .recv) (notifies : scene.machine.Spares home .register)
    (waiting : scene.machine.kernel.waiting home = letters) :
    Inbox (.endpoint home) armed (.endpoint ep) scene (letters.map Letter.message) := by
  subst own same
  exact .endpoint receives notifies waiting

/-- The others, or a handler, do something that puts these messages behind those that wait. -/
def Post.Brings (post : Post σ) (scene : Scene σ) (new : List Message) (scene' : Scene σ) : Prop :=
  ∀ armed transport messages, Inbox post armed transport scene messages →
    Inbox post armed transport scene' (messages ++ new)

/-- They bring any messages, or none. -/
abbrev Post.Brought (post : Post σ) (scene scene' : Scene σ) : Prop :=
  ∃ new, post.Brings scene new scene'

/-! ### One step -/

section Step

variable {calls : MessageType → List Value → Prop} {notices : Prop} {s s' : Seat η}
  {events : List Event} {post : Post σ} {armed : Bool} {others : σ} {messages : List Message}

/-- A step of the party takes the oldest message or none, and puts behind the others what the
party sends to itself. -/
theorem inbox_of_deal (deal : Deal calls notices s events s')
    (inbox : Inbox post armed s.rpc.transport ⟨s.machine, others⟩ messages) :
    ∃ armed' messages', Inbox post armed' s'.rpc.transport ⟨s'.machine, others⟩ messages' ∧
      receivedIn events ++ messages' = messages ++ s.rpc.transport.echoed events ∧
      (¬ notices → armed' = armed) := by
  generalize across : s.rpc.transport = transport at inbox
  generalize here : (⟨s.machine, others⟩ : Scene σ) = scene at inbox
  cases inbox with
  | @endpoint ep _ letters receives notifies waiting =>
      subst here waiting
      obtain ⟨⟨ep', across', home, armed⟩, spares, queue⟩ := handled_of_deal across deal
      rw [← home] at spares queue receives notifies ⊢
      refine ⟨ep'.armed, _, ?_, queue, armed⟩
      rw [across']
      exact .endpoint (spares _ receives) (spares _ notifies) rfl
  | @slots peer armed chan _ toPeer toUs polled joined =>
      subst here
      obtain ⟨⟨chan', toUs', toPeer', across', bell, -, joined', queue⟩, -, -⟩ :=
        passed_of_deal across joined deal
      have same := queue.trans (List.append_nil _).symm
      refine ⟨armed, toUs'.map Message.ofWords, ?_, same, fun _ => rfl⟩
      rw [across']
      exact .slots (bell.trans polled) joined'

end Step

/-! ### What has arrived -/

/-- What was taken so far and what waits is what has arrived. -/
def Balanced (post : Post σ) (armed : Bool) (taken : List Message) (now : Moment (Rpc η) σ)
    (arrived : List Message) : Prop :=
  ∃ waiting, Inbox post armed now.self.transport now.scene waiting ∧ arrived = taken ++ waiting

section Arriving

variable {post : Post σ} {calls : MessageType → List Value → Prop} {notices : Prop}
  {stage stage' : Stage η σ} {arrived arrived' taken : List Message} {events : List Event}
  {armed : Bool}

theorem Arriving.balanced
    (step : Arriving post.Brings calls notices (stage, arrived) events (stage', arrived'))
    (balanced : Balanced post armed taken stage.2 arrived) :
    ∃ armed', Balanced post armed' (taken ++ receivedIn events) stage'.2 arrived' ∧
      (¬ notices → armed' = armed) := by
  obtain ⟨waiting, inbox, rfl⟩ := balanced
  cases step with
  | pass paused brings =>
      obtain ⟨turn, rest, scene, -, -, rfl⟩ := Task.turn_of_pause paused
      exact ⟨armed, ⟨_, brings _ _ _ inbox, by simp [receivedIn]⟩, fun _ => rfl⟩
  | aside brings =>
      exact ⟨armed, ⟨_, brings _ _ _ inbox, by simp [receivedIn]⟩, fun _ => rfl⟩
  | deal deal =>
      obtain ⟨armed', waiting', inbox', queue, kept⟩ := inbox_of_deal deal inbox
      refine ⟨armed', ⟨waiting', inbox', ?_⟩, kept⟩
      rw [List.append_assoc, ← queue, List.append_assoc]

/-- A run of steps takes messages in the order in which they arrived. -/
theorem balanced_of_traced {before after : Stage η σ × List Message}
    (trace : Traced (Arriving post.Brings calls notices) before events after)
    (balanced : Balanced post armed taken before.1.2 before.2) :
    ∃ armed', Balanced post armed' (taken ++ receivedIn events) after.1.2 after.2 ∧
      (¬ notices → armed' = armed) := by
  induction trace with
  | nil => exact ⟨armed, by simpa [receivedIn] using balanced, fun _ => rfl⟩
  | next _ last ih =>
      obtain ⟨mid, balanced, kept⟩ := ih
      obtain ⟨armed', balanced', kept'⟩ := last.balanced balanced
      refine ⟨armed', ?_, fun never => (kept' never).trans (kept never)⟩
      rwa [receivedIn_append, ← List.append_assoc]

end Arriving

/-! ### Taking the oldest message -/

section Oldest

variable [Handler η σ] {terms : Terms σ} {post : Post σ} {armed : Bool} {now : Moment (Rpc η) σ}
  {oldest : Message} {rest waiting : List Message}

omit [Handler η σ] in
/-- A notification is there exactly if a message waits. -/
theorem takeEvent_waiting (may : terms.notices)
    (inbox : Inbox post true now.self.transport now.scene waiting) :
    ∃ now', onTransport Transport.takeEvent now = .ok (!waiting.isEmpty) now' ∧
      Course terms (.free, now) [] (.free, now') ∧ (waiting = [] → now' = now) ∧
      now'.turns = now.turns ∧ ∃ armed, Inbox post armed now'.self.transport now'.scene waiting := by
  generalize across : now.self.transport = transport at inbox
  generalize whole : true = flag at inbox
  cases inbox with
  | @endpoint ep _ letters receives notifies waits =>
      have notices : Deal terms.calls terms.notices ⟨.free, now.self, now.scene.machine⟩ []
          ⟨.free, { now.self with transport := .endpoint (ep.takeEvent now.scene.machine).2 },
            now.scene.machine⟩ := .notice may (by rw [across]; exact .event ep _)
      cases letters with
      | nil =>
          have vain : ep.takeEvent now.scene.machine = (false, ep) := by
            simp [Endpoint.takeEvent, Endpoint.canRecv, Kernel.pending, waits]
          have ran := takeEvent_endpoint across vain
          rw [carried_eq across] at ran
          refine ⟨now, ran, .nil _, fun _ => rfl, rfl, ep.armed, ?_⟩
          rw [across]
          exact .endpoint receives notifies waits
      | cons letter letters =>
          have event : ep.takeEvent now.scene.machine = (true, { ep with armed := false }) := by
            simp [Endpoint.takeEvent, Endpoint.canRecv, Kernel.pending, waits, ← whole]
          rw [event] at notices
          refine ⟨_, takeEvent_endpoint across event, .single (.deal notices), ?_, rfl, false, ?_⟩
          · intro none
            cases none
          · exact .of_endpoint rfl rfl receives notifies waits
  | @slots peer _ chan _ toPeer toUs polled joined =>
      have taken : chan.takeNotification now.scene.machine =
          .ok (!toUs.isEmpty, now.scene.machine) := by
        simp only [SlotChannel.takeNotification, polled, SlotChannel.canReceive_eq joined]
        rfl
      refine ⟨now, ?_, .nil _, fun _ => rfl, rfl, flag, ?_⟩
      · rw [takeEvent_slots across taken]
        cases toUs with
        | nil => rfl
        | cons words rest => rfl
      · rw [across]
        exact .slots polled joined

/-- The oldest message is taken, though it is lost if no slot can be had for the next
capability. -/
theorem leads_receive_oldest
    (inbox : Inbox post armed now.self.transport now.scene (oldest :: rest)) :
    Leads terms (onTransport Transport.receive) .free now
      (fun taken events last _ => taken = some oldest ∧ events = [.received oldest] ∧
        last = .serving oldest)
      fun _ events last _ => events = [.received oldest] ∧ last = .spoiled := by
  unfold Leads Transport.receive
  rw [onTransport_self_bind]
  generalize across : now.self.transport = transport at inbox
  generalize whole : oldest :: rest = waiting at inbox
  cases inbox with
  | @endpoint ep _ letters receives notifies waits =>
      simp only
      rw [onTransport_bind, onTransport_awaitAnswer, onTransport_asking]
      obtain ⟨letter, letters, rfl, rfl, rfl⟩ := List.map_eq_cons_iff.mp whole.symm
      have received := Endpoint.recv_cons receives (Kernel.get?_of_waiting waits)
      have takes : Deal terms.calls terms.notices ⟨.free, now.self, now.scene.machine⟩
          [.received letter.message] ⟨.serving letter.message, { now.self with
            transport := .endpoint ep }, now.scene.machine.fetched ep.home letters⟩ :=
        .take (by rw [across]; exact .endpoint received) (.serve _)
      rw [carried_eq across] at takes
      have answered : (Task.awaitAnswer (Task.asking ep.recv) : Task (Rpc η) σ _) now =
          .ok (.ok letter) { now with scene := { now.scene with
            machine := now.scene.machine.fetched ep.home letters } } := by
        refine Task.awaitAnswer_ok ?_ fun refused => by cases refused
        unfold Task.asking
        rw [Task.machine_bind, received]
        rfl
      rw [Task.bind_ok answered]
      refine leads_deal takes ((leads_giveOut ?_ letter _).mono ?_ ?_)
      · exact across
      · rintro taken events last now' ⟨rfl, rfl, rfl, -⟩
        exact ⟨rfl, rfl, rfl⟩
      · rintro e events last now' ⟨rfl, rfl, -⟩
        exact ⟨rfl, rfl⟩
  | @slots peer _ chan _ toPeer toUs polled joined =>
      obtain ⟨words, toUs, rfl, rfl, rfl⟩ := List.map_eq_cons_iff.mp whole.symm
      have received : Leads terms (onTransport Transport.receive) .free now _ _ :=
        leads_receive_slots across joined
      unfold Leads Transport.receive at received
      rwa [onTransport_self_bind, across] at received

/-- Whatever comes of the oldest message, it is the only one that is taken. -/
theorem leads_serveOne_oldest (wanders : Wanders η terms.asides)
    (inbox : Inbox post armed now.self.transport now.scene (oldest :: rest)) :
    Leads terms serveOne .free now
      (fun outcome events last _ => (outcome ≠ .idle ∧ receivedIn events = [oldest]) ∧ last = .free)
      fun _ events last _ => receivedIn events = [oldest] ∧ last = .free :=
  leads_serveOne_of_receive wanders (leads_receive_oldest inbox)

/-- An endpoint is armed. -/
def Armed (transport : Transport) : Prop := ∀ ep, transport = .endpoint ep → ep.armed = true

omit [Handler η σ] in
theorem Inbox.of_armed {transport : Transport} {scene : Scene σ}
    (inbox : Inbox post armed transport scene waiting) (arms : Armed transport) :
    Inbox post true transport scene waiting := by
  cases inbox with
  | @endpoint ep _ _ receives notifies waits =>
      exact .of_endpoint rfl (arms ep rfl) receives notifies waits
  | slots polled joined => exact .slots polled joined

omit [Handler η σ] in
theorem armed_of_inbox {transport : Transport} {scene : Scene σ}
    (inbox : Inbox post true transport scene waiting) : Armed transport := by
  generalize whole : true = flag at inbox
  cases inbox with
  | endpoint receives notifies waits =>
      intro ep same
      cases same
      exact whole.symm
  | slots polled joined =>
      intro ep same
      cases same

/-- The next notification is asked for, and the kernel does not refuse. -/
theorem leads_rearm_armed (may : terms.notices)
    (inbox : Inbox post armed now.self.transport now.scene waiting) :
    Leads terms (onTransport Transport.rearm) .free now
      (fun _ events last now' => events = [] ∧ last = .free ∧ Armed now'.self.transport)
      fun _ _ _ _ => False := by
  unfold Leads Transport.rearm
  rw [onTransport_self_bind]
  generalize across : now.self.transport = transport at inbox
  cases inbox with
  | @slots peer _ chan _ toPeer toUs polled joined =>
      refine ⟨[], .free, .nil _, rfl, rfl, ?_⟩
      intro ep same
      cases across.symm.trans same
  | @endpoint ep _ letters receives notifies waits =>
      simp only
      have granted : ep.register now.scene.machine =
          (.ok { ep with armed := true }, now.scene.machine) := by
        have spared : now.scene.machine.nextFault (.endpoint ep.home .register) =
          (none, now.scene.machine) := notifies
        simp only [Endpoint.register, Endpoint.unlessFault, spared]
      have arms : Deal terms.calls terms.notices ⟨.free, now.self, now.scene.machine⟩ []
          ⟨.free, { now.self with transport := .endpoint { ep with armed := true } },
            now.scene.machine⟩ := .notice may (by rw [across]; exact .armed granted)
      unfold Task.request
      rw [bind_assoc, onTransport_bind, onTransport_asking, Task.asking_bind, granted]
      refine ⟨[], .free, .single (.deal arms), rfl, rfl, ?_⟩
      intro ep' same
      cases same
      rfl

end Oldest

/-! ### Operations -/

section Operations

variable [Handler η σ] {post : Post σ} {calls : MessageType → List Value → Prop} {notices : Prop}
  {armed : Bool} {now : Moment (Rpc η) σ} {oldest : Message} {rest waiting : List Message}

/-- Wherever a task among such others ends, messages wait as an inbox says. -/
theorem Leads.attended {task : Task (Rpc η) σ α} {phase : Phase}
    {done : α → List Event → Phase → Moment (Rpc η) σ → Prop}
    {failed : Error → List Event → Phase → Moment (Rpc η) σ → Prop}
    (leads : Leads (amidst post.Brings calls notices) task phase now done failed)
    (inbox : Inbox post armed now.self.transport now.scene waiting)
    (lawful : ∀ turn ∈ now.turns, Turn.Follows post.Brought turn) :
    Leads (amidst post.Brings calls notices) task phase now
      (fun a events last now' => done a events last now' ∧
        ∃ armed' waiting', Inbox post armed' now'.self.transport now'.scene waiting' ∧
          (¬ notices → armed' = armed))
      fun e events last now' => failed e events last now' ∧
        ∃ armed' waiting', Inbox post armed' now'.self.transport now'.scene waiting' ∧
          (¬ notices → armed' = armed) := by
  have ends : ∀ {stage' : Stage η σ} {events : List Event},
      Course (amidst post.Brings calls notices) (phase, now) events stage' →
      ∃ armed' waiting', Inbox post armed' stage'.2.self.transport stage'.2.scene waiting' ∧
        (¬ notices → armed' = armed) := by
    intro stage' events course
    obtain ⟨-, arrived, trace⟩ := traced_of_course course lawful waiting
    obtain ⟨armed', ⟨waiting', inbox', -⟩, kept⟩ :=
      balanced_of_traced trace ⟨waiting, inbox, (List.nil_append _).symm⟩
    exact ⟨armed', waiting', inbox', kept⟩
  refine leads.coursed.mono ?_ ?_
  · rintro a events last now' ⟨course, done⟩
    exact ⟨done, ends course⟩
  · rintro e events last now' ⟨course, failed⟩
    exact ⟨failed, ends course⟩

/-- Whatever serving one message comes to, the party is notified of the next one. -/
theorem leads_onMessage_armed {P : Except Error Dispatch → List Message → Prop} (may : notices)
    (inbox : Inbox post armed now.self.transport now.scene waiting)
    (lawful : ∀ turn ∈ now.turns, Turn.Follows post.Brought turn)
    (serves : Leads (amidst post.Brings calls notices) serveOne .free now
      (fun outcome events last _ => P (.ok outcome) (receivedIn events) ∧ last = .free)
      fun e events last _ => P (.error e) (receivedIn events) ∧ last = .free) :
    Leads (amidst post.Brings calls notices) onMessage .free now
      (fun outcome events last now' => P (.ok outcome) (receivedIn events) ∧ last = .free ∧
        Armed now'.self.transport)
      fun e events last now' => P (.error e) (receivedIn events) ∧ last = .free ∧
        Armed now'.self.transport := by
  have later : ∀ (outcome : Except Error Dispatch) (events : List Event) (mid : Moment (Rpc η) σ),
      P outcome (receivedIn events) →
      (∃ armed' waiting', Inbox post armed' mid.self.transport mid.scene waiting' ∧
        (¬ notices → armed' = armed)) →
      Leads (amidst post.Brings calls notices) (do
        let _ ← Task.settle (onTransport Transport.rearm)
        Task.ofExcept outcome) .free mid
      (fun dispatch more last now' => P (.ok dispatch) (receivedIn (events ++ more)) ∧
        last = .free ∧ Armed now'.self.transport)
      fun e more last now' => P (.error e) (receivedIn (events ++ more)) ∧ last = .free ∧
        Armed now'.self.transport := by
    rintro outcome events mid served ⟨armed', waiting', inbox', -⟩
    refine leads_bind (leads_settle ((leads_rearm_armed may inbox').mono ?_ ?_))
    · rintro _ more last now' ⟨rfl, rfl, arms⟩
      refine leads_ofExcept ?_ ?_
      · rintro dispatch rfl
        exact ⟨by simpa using served, rfl, arms⟩
      · rintro e rfl
        exact ⟨by simpa using served, rfl, arms⟩
    · exact fun _ _ _ _ never => never.elim
  refine leads_bind (leads_settle ((serves.attended inbox lawful).mono ?_ ?_))
  · rintro dispatch events last mid ⟨⟨served, rfl⟩, inbox'⟩
    exact later (.ok dispatch) events mid served inbox'
  · rintro e events last mid ⟨⟨served, rfl⟩, inbox'⟩
    exact later (.error e) events mid served inbox'

/-- Where nothing waits, nothing is done. -/
theorem dispatchPending_idle (inbox : Inbox post true now.self.transport now.scene []) :
    dispatchPending now = .ok .idle now := by
  have may : (amidst post.Brings (fun _ _ => True) True).notices := trivial
  obtain ⟨now', ran, -, same, -, -⟩ := takeEvent_waiting may inbox
  obtain rfl := same rfl
  unfold dispatchPending
  rw [Task.bind_ok ran]
  rfl

/-- Otherwise the oldest message is taken and no other, and the party is notified of the next
one, whatever comes of it. -/
theorem leads_dispatchPending_oldest (may : notices) (wanders : Wanders η post.Brought)
    (inbox : Inbox post true now.self.transport now.scene (oldest :: rest))
    (lawful : ∀ turn ∈ now.turns, Turn.Follows post.Brought turn) :
    Leads (amidst post.Brings calls notices) dispatchPending .free now
      (fun outcome events last now' => (outcome ≠ .idle ∧ receivedIn events = [oldest]) ∧
        last = .free ∧ Armed now'.self.transport)
      fun _ events last now' => receivedIn events = [oldest] ∧ last = .free ∧
        Armed now'.self.transport := by
  have may' : (amidst post.Brings calls notices).notices := may
  obtain ⟨mid, ran, course, -, turns, armed, inbox'⟩ := takeEvent_waiting may' inbox
  unfold dispatchPending Leads
  rw [Task.bind_ok ran]
  rw [← turns] at lawful
  have serves : Leads (amidst post.Brings calls notices) serveOne .free mid _ _ :=
    leads_serveOne_oldest wanders inbox'
  have served : Leads (amidst post.Brings calls notices) onMessage .free mid _ _ :=
    leads_onMessage_armed (P := fun outcome messages => outcome ≠ .ok .idle ∧ messages = [oldest]) may
      inbox' lawful (serves.mono ?_ ?_)
  · refine Leads.after course (served.mono ?_ ?_)
    · rintro outcome events last now' ⟨⟨busy, taken⟩, rfl, arms⟩
      exact ⟨⟨fun same => busy (congrArg Except.ok same), taken⟩, rfl, arms⟩
    · rintro e events last now' ⟨⟨-, taken⟩, rfl, arms⟩
      exact ⟨taken, rfl, arms⟩
  · rintro outcome events last now' ⟨⟨busy, taken⟩, rfl⟩
    exact ⟨⟨fun same => busy (Except.ok.inj same), taken⟩, rfl⟩
  · rintro e events last now' ⟨taken, rfl⟩
    exact ⟨⟨fun same => (by cases same), taken⟩, rfl⟩

/-- Between operations an endpoint is armed. -/
theorem armed_of_completed {op : Operation η σ} {outcome : Except Error Unit}
    {after : Moment (Rpc η) σ} (wanders : Wanders η post.Brought)
    (own : ∀ use, op ≠ .useTransport use)
    (inbox : Inbox post true now.self.transport now.scene waiting)
    (lawful : ∀ turn ∈ now.turns, Turn.Follows post.Brought turn)
    (completed : Task.settle op.perform now = .ok outcome after) : Armed after.self.transport := by
  have still (permitted : op.Permitted (amidst post.Brings (fun _ _ => True) False) now.self) :
      Armed after.self.transport := by
    have leads : Leads (amidst post.Brings (fun _ _ => True) False) op.perform .free now _ _ :=
      leads_perform wanders permitted
    rcases Task.Ends.settled (leads.attended inbox lawful) completed with
      ⟨_, -, _, _, -, -, armed, waiting', inbox', kept⟩ |
      ⟨_, -, _, _, -, -, armed, waiting', inbox', kept⟩
    · rw [kept id] at inbox'
      exact armed_of_inbox inbox'
    · rw [kept id] at inbox'
      exact armed_of_inbox inbox'
  have served {task : Task (Rpc η) σ Dispatch}
      (leads : Leads (amidst post.Brings (fun _ _ => True) True) task .free now
        (fun _ _ _ now' => Armed now'.self.transport) fun _ _ _ now' => Armed now'.self.transport)
      (completed : Task.settle (do let _ ← task) now = .ok outcome after) :
      Armed after.self.transport := by
    have whole : Leads (amidst post.Brings (fun _ _ => True) True) (do let _ ← task) .free now
        (fun _ _ _ now' => Armed now'.self.transport) fun _ _ _ now' => Armed now'.self.transport :=
      leads_bind (leads.mono (fun _ _ _ _ arms => leads_pure arms) fun _ _ _ _ arms => arms)
    rcases Task.Ends.settled whole completed with ⟨_, -, _, _, -, arms⟩ | ⟨_, -, _, _, -, arms⟩
    · exact arms
    · exact arms
  cases op with
  | call t args => exact still trivial
  | client made => exact still (ClientCall.permitted_of_all (fun _ _ => trivial) _ made)
  | register b => exact still trivial
  | installStandard => exact still trivial
  | handle t handler => exact still trivial
  | setPageSize bytes => exact still trivial
  | useTransport use => exact absurd rfl (own use)
  | onMessage =>
      refine served (Leads.mono (leads_onMessage_armed (P := fun _ _ => True) trivial inbox lawful
        ((leads_serveOne wanders now).mono ?_ ?_)) ?_ ?_) completed
      · exact fun _ _ _ _ free => ⟨trivial, free⟩
      · exact fun _ _ _ _ free => ⟨trivial, free⟩
      · exact fun _ _ _ _ ends => ends.2.2
      · exact fun _ _ _ _ ends => ends.2.2
  | dispatchPending =>
      cases waiting with
      | nil =>
          have idle : (Operation.dispatchPending : Operation η σ).perform now = .ok () now :=
            Task.bind_ok (dispatchPending_idle inbox)
          cases (Task.settle_ok idle).symm.trans completed
          exact armed_of_inbox inbox
      | cons oldest rest =>
          refine served (Leads.mono (leads_dispatchPending_oldest trivial wanders inbox lawful)
            ?_ ?_) completed
          · exact fun _ _ _ _ ends => ends.2.2
          · exact fun _ _ _ _ ends => ends.2.2

/-- Whatever operation a party completes, what it took and what arrived on the way can be told. -/
theorem traced_of_completed {op : Operation η σ} {outcome : Except Error Unit}
    {after : Moment (Rpc η) σ} (wanders : Wanders η post.Brought)
    (own : ∀ use, op ≠ .useTransport use)
    (lawful : ∀ turn ∈ now.turns, Turn.Follows post.Brought turn)
    (completed : Task.settle op.perform now = .ok outcome after) (arrived : List Message) :
    ∃ events arrived', Traced (Arriving post.Brings (fun _ _ => True) True)
      ((.free, now), arrived) events ((.free, after), arrived') := by
  obtain ⟨events, course⟩ := course_of_completed (amidst post.Brings (fun _ _ => True) True) wanders
    (fun _ _ => trivial) trivial own completed
  obtain ⟨-, arrived', trace⟩ := traced_of_course course lawful arrived
  exact ⟨events, arrived', trace⟩

end Operations

/-! ### Histories -/

/-- What a party has taken and what has arrived for it, after any operations but those that
use its transport past it, with the others acting in between and while they last. -/
inductive Reception [Handler η σ] (post : Post σ) :
    List Message → List Message → Rpc η → Scene σ → Prop
  /-- The party is notified of messages, or looks for them itself. -/
  | start {rpc : Rpc η} {scene : Scene σ} {waiting : List Message}
      (inbox : Inbox post true rpc.transport scene waiting) : Reception post [] waiting rpc scene
  /-- The others act. -/
  | others {taken arrived new : List Message} {rpc : Rpc η} {scene scene' : Scene σ}
      (reception : Reception post taken arrived rpc scene)
      (brings : post.Brings scene new scene') : Reception post taken (arrived ++ new) rpc scene'
  /-- The party completes an operation. -/
  | did {taken arrived arrived' : List Message} {rpc : Rpc η} {scene : Scene σ}
      {op : Operation η σ} {turns : List (Turn σ)} {outcome : Except Error Unit}
      {after : Moment (Rpc η) σ} {events : List Event}
      (reception : Reception post taken arrived rpc scene) (own : ∀ use, op ≠ .useTransport use)
      (lawful : ∀ turn ∈ turns, Turn.Follows post.Brought turn)
      (completed : Task.settle op.perform ⟨rpc, scene, turns⟩ = .ok outcome after)
      (trace : Traced (Arriving post.Brings (fun _ _ => True) True)
        ((.free, ⟨rpc, scene, turns⟩), arrived) events ((.free, after), arrived')) :
      Reception post (taken ++ receivedIn events) arrived' after.self after.scene

section Histories

variable [Handler η σ] {post : Post σ} {taken arrived waiting : List Message} {rpc : Rpc η}
  {scene : Scene σ}

/-- What was taken and what waits is what has arrived, and the party is notified of it. -/
theorem Reception.inbox (wanders : Wanders η post.Brought)
    (reception : Reception post taken arrived rpc scene) :
    ∃ waiting, Inbox post true rpc.transport scene waiting ∧ arrived = taken ++ waiting := by
  induction reception with
  | start inbox => exact ⟨_, inbox, rfl⟩
  | others _ brings ih =>
      obtain ⟨waiting, inbox, rfl⟩ := ih
      exact ⟨_, brings _ _ _ inbox, List.append_assoc ..⟩
  | did _ own lawful completed trace ih =>
      obtain ⟨waiting, inbox, same⟩ := ih
      obtain ⟨armed, ⟨waiting', inbox', same'⟩, -⟩ := balanced_of_traced trace ⟨waiting, inbox, same⟩
      have arms := armed_of_completed wanders own inbox lawful completed
      exact ⟨waiting', inbox'.of_armed arms, same'⟩

/-- A dispatch is an operation, whose result is of no interest. -/
theorem completed_dispatch {now after : Moment (Rpc η) σ} {outcome : Except Error Dispatch}
    (completed : Task.settle dispatchPending now = .ok outcome after) :
    Task.settle (Operation.dispatchPending : Operation η σ).perform now =
      .ok (outcome.map fun _ => ()) after := by
  cases ran : dispatchPending now with
  | ok dispatch now' =>
      cases (Task.settle_ok ran).symm.trans completed
      exact Task.settle_ok (Task.bind_ok ran)
  | error stop now' =>
      cases stop with
      | failed e =>
          cases (Task.settle_failed ran).symm.trans completed
          exact Task.settle_failed (Task.bind_error ran)
      | halted h => simp [Task.settle, ran] at completed

theorem dispatchPending_busy {now after : Moment (Rpc η) σ} {outcome : Except Error Dispatch}
    {oldest : Message} {rest : List Message} (wanders : Wanders η post.Brought)
    (inbox : Inbox post true now.self.transport now.scene (oldest :: rest))
    (lawful : ∀ turn ∈ now.turns, Turn.Follows post.Brought turn) (arrived : List Message)
    (completed : Task.settle dispatchPending now = .ok outcome after) :
    outcome ≠ .ok .idle ∧ ∃ events arrived', receivedIn events = [oldest] ∧
      Traced (Arriving post.Brings (fun _ _ => True) True) ((.free, now), arrived) events
        ((.free, after), arrived') := by
  have leads : Leads (amidst post.Brings (fun _ _ => True) True) dispatchPending .free now _ _ :=
    leads_dispatchPending_oldest trivial wanders inbox lawful
  rcases Task.Ends.settled leads completed with
    ⟨dispatch, rfl, events, last, course, ⟨busy, took⟩, rfl, -⟩ |
    ⟨e, rfl, events, last, course, took, rfl, -⟩
  · obtain ⟨-, arrived', trace⟩ := traced_of_course course lawful arrived
    exact ⟨fun same => busy (Except.ok.inj same), events, arrived', took, trace⟩
  · obtain ⟨-, arrived', trace⟩ := traced_of_course course lawful arrived
    exact ⟨fun same => (by cases same), events, arrived', took, trace⟩

/-- What dispatching does where these messages wait. -/
structure Attends (post : Post σ) (taken waiting : List Message) (now : Moment (Rpc η) σ) :
    Prop where
  /-- A dispatch answers that the party is idle exactly if no message waits. -/
  idle : (∃ now', dispatchPending now = .ok .idle now') ↔ waiting = []
  /-- Then it does nothing. -/
  still : waiting = [] → dispatchPending now = .ok .idle now
  /-- Otherwise it takes the oldest message and no other, whatever comes of that. -/
  oldest : ∀ oldest rest outcome after, waiting = oldest :: rest →
    Task.settle dispatchPending now = .ok outcome after →
      ∃ new, Reception post (taken ++ [oldest]) (taken ++ waiting ++ new) after.self after.scene ∧
        Inbox post true after.self.transport after.scene (rest ++ new)

theorem Reception.attends (wanders : Wanders η post.Brought)
    (reception : Reception post taken (taken ++ waiting) rpc scene)
    (inbox : Inbox post true rpc.transport scene waiting) {turns : List (Turn σ)}
    (lawful : ∀ turn ∈ turns, Turn.Follows post.Brought turn) :
    Attends post taken waiting ⟨rpc, scene, turns⟩ := by
  have still : waiting = [] → dispatchPending ⟨rpc, scene, turns⟩ = .ok .idle ⟨rpc, scene, turns⟩ := by
    rintro rfl
    exact dispatchPending_idle inbox
  refine ⟨⟨?_, fun none => ⟨_, still none⟩⟩, still, ?_⟩
  · rintro ⟨now', answered⟩
    cases waiting with
    | nil => rfl
    | cons oldest rest =>
        exact absurd rfl (dispatchPending_busy wanders inbox lawful [] (Task.settle_ok answered)).1
  · rintro oldest rest outcome after rfl completed
    obtain ⟨-, events, arrived', took, trace⟩ :=
      dispatchPending_busy wanders inbox lawful (taken ++ oldest :: rest) completed
    obtain ⟨new, rfl⟩ := arrived_of_traced trace
    have later := reception.did (fun _ same => by cases same) lawful
      (completed_dispatch completed) trace
    rw [took] at later
    obtain ⟨waiting', inbox', same⟩ := later.inbox wanders
    have left : waiting' = rest ++ new := by simpa using same.symm
    exact ⟨new, later, left ▸ inbox'⟩

/-- Dispatches are repeated until one answers that the party is idle, whatever comes of the
others. These messages are taken, and so much has arrived before and after. -/
inductive Drains (post : Post σ) :
    Rpc η → Scene σ → List Message → List Message → Rpc η → Scene σ → List Message → Prop
  | idle {rpc : Rpc η} {scene : Scene σ} {arrived : List Message} {turns : List (Turn σ)}
      {after : Moment (Rpc η) σ} (lawful : ∀ turn ∈ turns, Turn.Follows post.Brought turn)
      (answered : dispatchPending ⟨rpc, scene, turns⟩ = .ok .idle after) :
      Drains post rpc scene arrived [] after.self after.scene arrived
  | others {rpc rpc' : Rpc η} {scene mid scene' : Scene σ}
      {arrived new messages arrived' : List Message} (brings : post.Brings scene new mid)
      (rest : Drains post rpc mid (arrived ++ new) messages rpc' scene' arrived') :
      Drains post rpc scene arrived messages rpc' scene' arrived'
  | next {rpc rpc' : Rpc η} {scene scene' : Scene σ} {turns : List (Turn σ)}
      {outcome : Except Error Dispatch} {mid : Moment (Rpc η) σ} {events : List Event}
      {arrived more messages arrived' : List Message}
      (lawful : ∀ turn ∈ turns, Turn.Follows post.Brought turn)
      (completed : Task.settle dispatchPending ⟨rpc, scene, turns⟩ = .ok outcome mid)
      (trace : Traced (Arriving post.Brings (fun _ _ => True) True)
        ((.free, ⟨rpc, scene, turns⟩), arrived) events ((.free, mid), more))
      (rest : Drains post mid.self mid.scene more messages rpc' scene' arrived') :
      Drains post rpc scene arrived (receivedIn events ++ messages) rpc' scene' arrived'

/-- Dispatches that are repeated until the party is idle take all that has arrived. -/
theorem Drains.all (wanders : Wanders η post.Brought) {messages arrived' : List Message}
    {rpc' : Rpc η} {scene' : Scene σ}
    (drains : Drains post rpc scene arrived messages rpc' scene' arrived')
    (reception : Reception post taken arrived rpc scene) :
    Inbox post true rpc'.transport scene' [] ∧ arrived' = taken ++ messages ∧
      ∃ new, arrived' = arrived ++ new := by
  induction drains generalizing taken with
  | idle lawful answered =>
      obtain ⟨waiting, inbox, rfl⟩ := reception.inbox wanders
      have attends := reception.attends wanders inbox lawful
      have none := attends.idle.mp ⟨_, answered⟩
      subst none
      cases answered.symm.trans (attends.still rfl)
      exact ⟨inbox, rfl, [], (List.append_nil _).symm⟩
  | others brings _ ih =>
      obtain ⟨inbox, all, new, same⟩ := ih (reception.others brings)
      exact ⟨inbox, all, _, same.trans (List.append_assoc ..)⟩
  | next lawful completed trace _ ih =>
      have later := reception.did (fun _ same => by cases same) lawful
        (completed_dispatch completed) trace
      obtain ⟨inbox, all, new, same⟩ := ih later
      obtain ⟨earlier, rfl⟩ := arrived_of_traced trace
      exact ⟨inbox, all.trans (List.append_assoc ..), _, same.trans (List.append_assoc ..)⟩

/-- Whatever a party has done and the others have done: it is notified of messages, a dispatch
answers that the party is idle exactly if none waits and otherwise takes the oldest, and
dispatches that are repeated until then take all that waits and arrives, in order. -/
theorem no_wakeup_lost (wanders : Wanders η post.Brought)
    (reception : Reception post taken arrived rpc scene) :
    ∃ waiting, Inbox post true rpc.transport scene waiting ∧ arrived = taken ++ waiting ∧
      (∀ turns, (∀ turn ∈ turns, Turn.Follows post.Brought turn) →
        Attends post taken waiting ⟨rpc, scene, turns⟩) ∧
      ∀ messages rpc' scene' arrived', Drains post rpc scene arrived messages rpc' scene' arrived' →
        Inbox post true rpc'.transport scene' [] ∧
          ∃ new, arrived' = arrived ++ new ∧ messages = waiting ++ new := by
  obtain ⟨waiting, inbox, rfl⟩ := reception.inbox wanders
  refine ⟨waiting, inbox, rfl, fun turns lawful => reception.attends wanders inbox lawful, ?_⟩
  intro messages rpc' scene' arrived' drains
  obtain ⟨inbox', all, new, rfl⟩ := drains.all wanders reception
  refine ⟨inbox', new, rfl, ?_⟩
  rw [List.append_assoc] at all
  exact (List.append_cancel_left all).symm

end Histories

/-! ### A party that two messages wait for -/

/-- A party with a tally for one message type. A message that it knows nothing of waits, and a
call. -/
def attending : Moment (Rpc Tally) Unit where
  self :=
    let rpc : Rpc Tally := create (.endpoint { home := ⟨1⟩, peer := some ⟨0⟩, armed := true })
    let rpc := { rpc with
      entries := rpc.entries.insert ⟨10⟩ { binding := ⟨⟨10⟩, [.word], [.word]⟩ } }
    rpc.handle ⟨10⟩ ⟨0⟩
  scene :=
    let m := (Endpoint.createPair (Machine.create 2)).2
    let m := (m.onKernel_ (·.inject ⟨1⟩ (Message.letter { words := [99] }))).2
    ⟨(m.onKernel_ (·.inject ⟨1⟩ (Message.letter { words := [10, 7] }))).2, ()⟩
  turns := []

theorem inbox_attending : Inbox (.endpoint ⟨1⟩) true attending.self.transport attending.scene
    [{ words := [99, 0, 0, 0] }, { words := [10, 7, 0, 0] }] := by
  have messages : (attending.scene.machine.kernel.waiting ⟨1⟩).map Letter.message =
      [{ words := [99, 0, 0, 0] }, { words := [10, 7, 0, 0] }] := by decide +kernel
  have across : attending.self.transport =
      .endpoint { home := ⟨1⟩, peer := some ⟨0⟩, armed := true } := by decide +kernel
  have plans (op : EndpointOp) : attending.scene.machine.Spares ⟨1⟩ op :=
    Machine.spares_iff.mpr (.inl rfl)
  rw [← messages, across]
  exact .of_endpoint rfl rfl (plans _) (plans _) rfl

/-- A dispatch that fails takes its message, and the call still waits. -/
theorem no_wakeup_lost_unbound : ∃ now' : Moment (Rpc Tally) Unit,
    Wanders Tally (Post.endpoint ⟨1⟩ : Post Unit).Brought ∧
    Reception (.endpoint ⟨1⟩) [] [{ words := [99, 0, 0, 0] }, { words := [10, 7, 0, 0] }]
      attending.self attending.scene ∧
    Task.settle dispatchPending attending = .ok (.error (.unknownBinding ⟨99⟩)) now' ∧
    ∃ new, Inbox (.endpoint ⟨1⟩) true now'.self.transport now'.scene
      ({ words := [10, 7, 0, 0] } :: new) := by
  have ran : (Task.failure? (dispatchPending attending)).map (fun failed => failed.1) =
      some (.unknownBinding ⟨99⟩) := by decide +kernel
  obtain ⟨⟨e, now'⟩, failed, rfl⟩ := Option.map_eq_some_iff.mp ran
  have returned := Task.settle_failed (Task.failure?_eq_some failed)
  have wanders := wanders_tally (Post.endpoint ⟨1⟩ : Post Unit).Brought
  have reception := Reception.start inbox_attending
  obtain ⟨waiting, -, same, attends, -⟩ := no_wakeup_lost wanders reception
  obtain ⟨new, -, inbox⟩ := (attends [] (fun _ mem => absurd mem List.not_mem_nil)).oldest _ _ _ _
    same.symm returned
  exact ⟨now', wanders, reception, returned, new, inbox⟩

end Rpc

end Conduit

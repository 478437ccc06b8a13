/-
# What a party does, event by event

A run of a task is followed step by step. In a step the others act once, or the party does
one thing: it takes a message, sends one, has a handler answer, or does something that no
message shows. A step without an event leaves every queue as it is, and over shared memory
the whole machine, unless the others act (`Transport.Calm`).

`Goes` says how a task may end together with the events up to there. Its rules follow the
way a task is put together; in `goes_await` the events of a wait are those of its polls.
-/

import Conduit.Call.Rpc
import Conduit.Proofs.Call.Transfer
import Conduit.Proofs.Task.Anyhow

namespace Conduit

variable {δ η σ α β μ : Type}

/-- What a party does that others can tell. -/
inductive Event where
  /-- It takes a message. -/
  | received (message : Message)
  /-- It sends a message. -/
  | sent (message : Message)
  /-- The handler of a message type is run on arguments. -/
  | answered (t : MessageType) (args : List Value)

/-- Any number of steps, with the events of all. -/
inductive Traced (step : μ → List Event → μ → Prop) : μ → List Event → μ → Prop
  | nil (now : μ) : Traced step now [] now
  | next {now mid now' : μ} {events more : List Event} (trace : Traced step now events mid)
      (last : step mid more now') : Traced step now (events ++ more) now'

namespace Traced

variable {step : μ → List Event → μ → Prop} {now mid now' : μ} {events more : List Event}

theorem single (one : step now events now') : Traced step now events now' :=
  .next (.nil now) one

theorem append (first : Traced step now events mid) (later : Traced step mid more now') :
    Traced step now (events ++ more) now' := by
  induction later with
  | nil => rwa [List.append_nil]
  | next _ last ih =>
      rw [← List.append_assoc]
      exact .next ih last

end Traced

/-! ### Tasks, with their events -/

namespace Task

/-- However the task ends, it went by steps, and the events are as told. -/
def Goes (step : Moment δ σ → List Event → Moment δ σ → Prop) (task : Task δ σ α)
    (now : Moment δ σ) (done : α → List Event → Moment δ σ → Prop)
    (failed : Error → List Event → Moment δ σ → Prop) : Prop :=
  Ends (task now) (fun a now' => ∃ events, Traced step now events now' ∧ done a events now')
    fun stop now' => ∀ e, stop = .failed e →
      ∃ events, Traced step now events now' ∧ failed e events now'

variable {step : Moment δ σ → List Event → Moment δ σ → Prop} {now : Moment δ σ}
  {done : α → List Event → Moment δ σ → Prop} {failed : Error → List Event → Moment δ σ → Prop}

theorem Goes.mono {task : Task δ σ α} {done' : α → List Event → Moment δ σ → Prop}
    {failed' : Error → List Event → Moment δ σ → Prop} (goes : Goes step task now done failed)
    (onDone : ∀ a events now', done a events now' → done' a events now')
    (onFailed : ∀ e events now', failed e events now' → failed' e events now') :
    Goes step task now done' failed' := by
  refine Ends.mono goes ?_ ?_
  · rintro a now' ⟨events, trace, ends⟩
    exact ⟨events, trace, onDone _ _ _ ends⟩
  · rintro stop now' fails e rfl
    obtain ⟨events, trace, ends⟩ := fails e rfl
    exact ⟨events, trace, onFailed _ _ _ ends⟩

/-- The events told are those of the steps. -/
theorem Goes.traced {task : Task δ σ α} (goes : Goes step task now done failed) :
    Goes step task now (fun a events now' => Traced step now events now' ∧ done a events now')
      fun e events now' => Traced step now events now' ∧ failed e events now' := by
  refine Ends.mono goes ?_ ?_
  · rintro a now' ⟨events, trace, ends⟩
    exact ⟨events, trace, trace, ends⟩
  · rintro stop now' fails e same
    obtain ⟨events, trace, ends⟩ := fails e same
    exact ⟨events, trace, trace, ends⟩

/-- What is told of a run that returned. -/
theorem Goes.of_ok {task : Task δ σ α} {a : α} {now' : Moment δ σ}
    (goes : Goes step task now done failed) (ran : task now = .ok a now') :
    ∃ events, Traced step now events now' ∧ done a events now' := by
  unfold Goes at goes
  rwa [ran] at goes

theorem goes_pure {a : α} (ends : done a [] now) :
    Goes step (pure a : Task δ σ α) now done failed := ⟨[], .nil now, ends⟩

theorem goes_fail {e : Error} (ends : failed e [] now) :
    Goes step (fail e : Task δ σ α) now done failed := by
  rintro e' same
  cases same
  exact ⟨[], .nil now, ends⟩

theorem goes_halt (h : Halt) : Goes step (halt h : Task δ σ α) now done failed := by
  rintro e same
  cases same

theorem goes_ofExcept {result : Except Error α} (onOk : ∀ a, result = .ok a → done a [] now)
    (onError : ∀ e, result = .error e → failed e [] now) :
    Goes step (ofExcept result) now done failed := by
  cases result with
  | ok a => exact goes_pure (onOk a rfl)
  | error e => exact goes_fail (onError e rfl)

/-- Asking the kernel for something is a step without an event if what it does to the
machine is. -/
theorem goes_request {use : Machine → Except ChannelError α × Machine}
    (moves : step now [] { now with
      scene := { now.scene with machine := (use now.scene.machine).2 } }) :
    Goes step (request use) now
      (fun a events now' => events = [] ∧ now'.self = now.self ∧
        (use now.scene.machine).1 = .ok a)
      fun e events _ => events = [] ∧ ∃ cause, e = Error.ofChannel cause := by
  unfold request Goes
  rw [asking_bind]
  rcases answered : use now.scene.machine with ⟨cause | a, m⟩
  · rw [answered] at moves
    rintro e same
    cases same
    exact ⟨[], .single moves, rfl, cause, rfl⟩
  · rw [answered] at moves
    exact ⟨[], .single moves, rfl, rfl, rfl⟩

/-- What comes later has the events before it in front. -/
theorem Goes.after {mid : Moment δ σ} {events : List Event} {task : Task δ σ α}
    (before : Traced step now events mid)
    (goes : Goes step task mid (fun a more now' => done a (events ++ more) now')
      fun e more now' => failed e (events ++ more) now') :
    Ends (task mid) (fun a now' => ∃ events, Traced step now events now' ∧ done a events now')
      fun stop now' => ∀ e, stop = .failed e →
        ∃ events, Traced step now events now' ∧ failed e events now' := by
  refine Ends.mono goes ?_ ?_
  · rintro a now' ⟨more, trace, ends⟩
    exact ⟨_, before.append trace, ends⟩
  · rintro stop now' fails e rfl
    obtain ⟨more, trace, ends⟩ := fails e rfl
    exact ⟨_, before.append trace, ends⟩

theorem goes_bind {task : Task δ σ β} {next : β → Task δ σ α}
    (goes : Goes step task now
      (fun b events mid => Goes step (next b) mid
        (fun a more now' => done a (events ++ more) now')
        fun e more now' => failed e (events ++ more) now') failed) :
    Goes step (task >>= next) now done failed := by
  apply ends_bind
  refine Ends.mono goes ?_ fun _ _ fails => fails
  rintro b mid ⟨events, trace, later⟩
  exact later.after trace

theorem goes_settle {task : Task δ σ α} {done : Except Error α → List Event → Moment δ σ → Prop}
    (goes : Goes step task now (fun a events now' => done (.ok a) events now')
      fun e events now' => done (.error e) events now') :
    Goes step (settle task) now done failed := by
  apply ends_settle
  refine Ends.mono goes (fun _ _ ends => ends) ?_
  rintro (e | h) now' fails
  · exact fails e rfl
  · rintro e same
    cases same

/-- A turn of the others is a step that leaves the party alone. -/
theorem goes_pause (passes : ∀ now now', pause now = .ok () now' → step now [] now')
    (now : Moment δ σ) :
    Goes step pause now (fun _ events now' => events = [] ∧ now'.self = now.self)
      fun _ _ _ => False := by
  unfold Goes
  cases paused : pause now with
  | ok u now' =>
      exact ⟨[], .single (passes _ _ paused), rfl, self_of_pause paused⟩
  | error stop now' =>
      rintro e rfl
      exact (FailsOnly.of_ran (p := fun _ => False) .pause paused).elim

/-- While nothing but vain polls and turns of the others has happened, there is no event. -/
theorem goes_await {poll : Task δ σ (Option α)} (holds : δ → Prop)
    (passes : ∀ now now', pause now = .ok () now' → step now [] now')
    (polls : ∀ now, holds now.self → Goes step poll now (fun
      | none, events, now' => events = [] ∧ holds now'.self
      | some a, events, now' => done a events now') failed)
    (start : holds now.self) : Goes step (await poll) now done failed := by
  refine ends_repeatWithin (fun mid => Traced step now [] mid ∧ holds mid.self) ?_ ?_ _
    ⟨.nil now, start⟩
  · rintro mid ⟨before, kept⟩
    apply ends_bind
    refine Ends.mono (polls mid kept) ?_ ?_
    · rintro (_ | a) last ⟨events, trace, ends⟩
      · obtain ⟨rfl, kept⟩ := ends
        apply ends_bind
        refine Ends.mono (goes_pause passes last) ?_ ?_
        · rintro _ now' ⟨events, passed, rfl, same⟩
          exact ⟨(before.append trace).append passed, same ▸ kept⟩
        · rintro stop now' never e rfl
          obtain ⟨_, _, nothing⟩ := never e rfl
          exact nothing.elim
      · exact ⟨events, before.append trace, ends⟩
    · rintro stop last fails e rfl
      obtain ⟨events, trace, ends⟩ := fails e rfl
      exact ⟨events, before.append trace, ends⟩
  · rintro mid before e same
    cases same

end Task

/-! ### Channels over shared memory -/

namespace SlotChannel

variable {c c' : SlotChannel} {m m' : Machine}

/-- Receiving leaves all as it is, or reads the slot at the cursor and gives it back. -/
theorem receive_cases {limit : Nat} {taken : Option (List UInt64)}
    (ran : c.receive limit m = .ok (taken, c', m')) :
    (taken = none ∧ c' = c ∧ m' = m) ∨
      ∃ words memory, taken = some words ∧
        m.memory.loadAll c.recvPane (c.base c.recvIndex + 1) (min limit c.payloadWords) =
          .ok words ∧
        m.memory.store c.recvPane (c.base c.recvIndex) SlotFlag.receivedWord = .ok memory ∧
        c' = { c with recvIndex := (c.recvIndex + 1) % c.slots } ∧ m' = { m with memory } := by
  obtain ⟨flag, -, ran⟩ := of_bind_ok ran
  split at ran
  · obtain ⟨words, read, ran⟩ := of_bind_ok ran
    obtain ⟨memory, given, ran⟩ := of_bind_ok ran
    cases ran
    exact .inr ⟨words, memory, rfl, read, given, rfl, rfl⟩
  · cases ran
    exact .inl ⟨rfl, rfl, rfl⟩

/-- Where no message waits, receiving does nothing. -/
theorem eq_of_receive_none {limit : Nat} (ran : c.receive limit m = .ok (none, c', m')) :
    c' = c ∧ m' = m := by
  obtain ⟨-, same⟩ | ⟨words, memory, some, -⟩ := receive_cases ran
  · exact same
  · cases some

/-- Sending leaves all as it is, or fills the slot at the cursor and rings. -/
theorem send_cases {payload : List UInt64} {answer : Except Error Bool}
    (ran : c.send payload m = .ok (answer, c', m')) :
    (answer ≠ .ok true ∧ c' = c ∧ m' = m) ∨
      ∃ filled memory bells, answer = .ok true ∧
        m.memory.storeAll c.sendPane (c.base c.sendIndex + 1) (pad c.payloadWords payload) =
          .ok filled ∧
        filled.store c.sendPane (c.base c.sendIndex) SlotFlag.sentWord = .ok memory ∧
        c' = { c with sendIndex := (c.sendIndex + 1) % c.slots } ∧
        m' = { m with memory, bells } := by
  unfold send at ran
  split at ran
  · cases ran
    exact .inl ⟨nofun, rfl, rfl⟩
  · obtain ⟨flag, -, ran⟩ := of_bind_ok ran
    split at ran
    · obtain ⟨filled, stored, ran⟩ := of_bind_ok ran
      obtain ⟨memory, marked, ran⟩ := of_bind_ok ran
      cases ran
      exact .inr ⟨filled, memory, _, rfl, stored, marked, rfl, rfl⟩
    · cases ran
      exact .inl ⟨nofun, rfl, rfl⟩

/-- A message that is not sent is sent nowhere. -/
theorem eq_of_send_unfilled {payload : List UInt64} {answer : Except Error Bool}
    (ran : c.send payload m = .ok (answer, c', m')) (unfilled : answer ≠ .ok true) :
    c' = c ∧ m' = m := by
  obtain ⟨-, same⟩ | ⟨filled, memory, bells, sent, -⟩ := send_cases ran
  · exact same
  · exact absurd sent unfilled

end SlotChannel

/-! ### Transports -/

namespace Transport

/-- No message moved: the queues are as they were, and over shared memory everything is. -/
inductive Calm : Transport → Machine → Transport → Machine → Prop
  | endpoint {ep ep' : Endpoint} {m m' : Machine} (home : ep'.home = ep.home)
      (same : m'.kernel.waiting = m.kernel.waiting) : Calm (.endpoint ep) m (.endpoint ep') m'
  | slots (chan : SlotChannel) (m : Machine) : Calm (.slots chan) m (.slots chan) m

/-- This message, and nothing else, went to the other end. -/
inductive Sends (message : Message) : Transport → Machine → Transport → Machine → Prop
  | endpoint {ep : Endpoint} {m m' : Machine} {peer : Cap} (known : ep.peer = some peer)
      (moved : m'.kernel.waiting = Function.update m.kernel.waiting peer
        (m.kernel.waiting peer ++ [message.letter])) :
      Sends message (.endpoint ep) m (.endpoint ep) m'
  | slots {chan chan' : SlotChannel} {m m' : Machine}
      (filled : chan.send message.words m = .ok (.ok true, chan', m')) :
      Sends message (.slots chan) m (.slots chan') m'

/-- This message, the first that waited, and nothing else, was taken. -/
inductive Takes (message : Message) : Transport → Machine → Transport → Machine → Prop
  | endpoint {ep : Endpoint} {m m' : Machine} {letter : Letter} {rest : List Letter}
      (content : message = letter.message) (first : m.kernel.waiting ep.home = letter :: rest)
      (moved : m'.kernel.waiting = Function.update m.kernel.waiting ep.home rest) :
      Takes message (.endpoint ep) m (.endpoint ep) m'
  | slots {chan chan' : SlotChannel} {m m' : Machine} (capless : message.cap = none)
      (emptied : chan.receive chan.payloadWords m = .ok (some message.words, chan', m')) :
      Takes message (.slots chan) m (.slots chan') m'

/-- The moment after the transport and the machine changed. -/
def changed (now : Moment Transport σ) (transport : Transport) (m : Machine) :
    Moment Transport σ :=
  { now with self := transport, scene := { now.scene with machine := m } }

/-- One step of the transport of a party. -/
inductive Step : Moment Transport σ → List Event → Moment Transport σ → Prop
  | pass {now now' : Moment Transport σ} (paused : Task.pause now = .ok () now') : Step now [] now'
  | calm {now : Moment Transport σ} {transport : Transport} {m : Machine}
      (calm : Calm now.self now.scene.machine transport m) : Step now [] (changed now transport m)
  | send {now : Moment Transport σ} {transport : Transport} {m : Machine} (message : Message)
      (sends : Sends message now.self now.scene.machine transport m) :
      Step now [.sent message] (changed now transport m)
  | take {now : Moment Transport σ} {transport : Transport} {m : Machine} (message : Message)
      (takes : Takes message now.self now.scene.machine transport m) :
      Step now [.received message] (changed now transport m)

variable {now : Moment Transport σ} {ep : Endpoint} {m : Machine}

theorem step_calm (across : now.self = .endpoint ep)
    (same : m.kernel.waiting = now.scene.machine.kernel.waiting) :
    Step now [] { now with scene := { now.scene with machine := m } } := by
  have calm : Calm now.self now.scene.machine now.self m := by
    rw [across]
    exact .endpoint rfl same
  exact .calm calm

theorem step_idle {chan : SlotChannel} (across : now.self = .slots chan) :
    Step now [] (changed now (.slots chan) now.scene.machine) := by
  have calm : Calm now.self now.scene.machine (.slots chan) now.scene.machine := by
    rw [across]
    exact .slots chan _
  exact .calm calm

/-- One more letter is taken, or the queues are as they were. -/
theorem goes_recv (across : now.self = .endpoint ep) :
    Task.Goes Step (Task.awaitAnswer (Task.asking ep.recv)) now
      (fun answer events now' => now'.self = .endpoint ep ∧
        match answer with
        | .ok letter => events = [.received letter.message]
        | .error _ => events = [])
      fun _ _ _ => False := by
  refine Task.goes_await (· = .endpoint ep) (fun _ _ paused => .pass paused) ?_ across
  intro now across
  unfold Task.Goes
  rw [Task.asking_bind]
  rcases answered : ep.recv now.scene.machine with ⟨e | letter, m⟩
  · have rests := step_calm across (Endpoint.recv_refused answered)
    cases e with
    | transient => exact ⟨[], .single rests, rfl, across⟩
    | _ => exact ⟨[], .single rests, across, rfl⟩
  · obtain ⟨rest, waits, moved⟩ := Endpoint.recv_effect answered
    have takes : Takes letter.message now.self now.scene.machine now.self m := by
      rw [across]
      exact .endpoint rfl waits moved
    exact ⟨_, .single (.take letter.message takes), across, rfl⟩

/-- The events of receiving. -/
def taking : Option Message → List Event
  | none => []
  | some message => [.received message]

/-- Receiving takes one message or none. It fails for the kernel alone: before a message
is taken, or when no slot can be had for the next capability. -/
theorem goes_receive (now : Moment Transport σ) :
    Task.Goes Step receive now (fun taken events _ => events = taking taken)
      fun e events _ => (∃ cause, e = Error.ofChannel cause) ∧
        (events = [] ∨ ∃ message, message.cap.isSome = true ∧ events = [.received message]) := by
  unfold receive Task.Goes
  rw [Task.self_bind]
  cases across : now.self with
  | slots chan =>
      simp only [Task.machine_bind]
      cases ran : chan.receive chan.payloadWords now.scene.machine with
      | error cause =>
          rintro e same
          cases same
      | ok result =>
          obtain ⟨words, chan', m⟩ := result
          cases words with
          | none =>
              obtain ⟨rfl, rfl⟩ := SlotChannel.eq_of_receive_none ran
              exact ⟨[], .single (step_idle across), rfl⟩
          | some words =>
              have takes : Takes { words } now.self now.scene.machine (.slots chan') m := by
                rw [across]
                exact .slots rfl ran
              exact ⟨_, .single (.take _ takes), rfl⟩
  | endpoint ep =>
      refine Task.goes_bind ((goes_recv across).mono ?_ fun _ _ _ nothing => nothing.elim)
      rintro (cause | letter) events now' ⟨across, rfl⟩
      · cases cause with
        | noMessage => exact Task.goes_pure rfl
        | _ => exact Task.goes_fail ⟨⟨_, rfl⟩, .inl rfl⟩
      · by_cases carries : letter.cap.isSome = true
        · simp only [carries, if_true]
          have calm := step_calm across (ep.waiting_allocRecvSlot now'.scene.machine)
          refine Task.goes_bind ((Task.goes_request calm).mono ?_ ?_)
          · rintro _ events now' ⟨rfl, -⟩
            exact Task.goes_pure rfl
          · rintro e events now' ⟨rfl, cause, rfl⟩
            exact ⟨⟨cause, rfl⟩, .inr ⟨letter.message, carries, rfl⟩⟩
        · simp only [carries]
          exact Task.goes_pure rfl

/-- One try to send a message sends it, or nothing. -/
theorem goes_offer (message : Message) (flags : SendFlags) (now : Moment Transport σ) :
    Task.Goes Step (offer message flags) now (fun
      | none, events, _ => events = []
      | some _, events, _ => events = [.sent message])
      fun _ events _ => events = [] := by
  unfold offer Task.Goes
  rw [Task.self_bind]
  cases across : now.self with
  | slots chan =>
      simp only [Task.machine_bind]
      cases ran : chan.send message.words now.scene.machine with
      | error cause =>
          rintro e same
          cases same
      | ok result =>
          obtain ⟨answer, chan', m⟩ := result
          have idle : answer ≠ .ok true → Traced Step now []
              (changed now (.slots chan') m) := fun unfilled => by
            obtain ⟨rfl, rfl⟩ := SlotChannel.eq_of_send_unfilled ran unfilled
            exact .single (step_idle across)
          rcases answer with e | _ | _
          · exact ⟨[], idle (fun same => by cases same), rfl⟩
          · exact ⟨[], idle (fun same => by cases same), rfl⟩
          · have sends : Sends message now.self now.scene.machine (.slots chan') m := by
              rw [across]
              exact .slots ran
            exact ⟨_, .single (.send message sends), rfl⟩
  | endpoint ep =>
      simp only [Task.asking_bind]
      rcases answered : ep.send flags ⟨Letter.fit message.words, message.cap⟩ now.scene.machine with
        ⟨cause | u, m⟩
      · have rests := step_calm across (Endpoint.send_refused answered)
        cases cause with
        | transient => exact ⟨[], .single rests, rfl⟩
        | _ =>
            rintro e same
            cases same
            exact ⟨[], .single rests, rfl⟩
      · obtain ⟨peer, known, moved⟩ := Endpoint.send_effect answered
        have sends : Sends message now.self now.scene.machine now.self m := by
          rw [across]
          exact .endpoint known moved
        exact ⟨_, .single (.send message sends), rfl⟩

/-- Sending sends the message once, or fails and sends nothing. -/
theorem goes_send (message : Message) (flags : SendFlags) (now : Moment Transport σ) :
    Task.Goes Step (send message flags) now (fun _ events _ => events = [.sent message])
      fun _ events _ => events = [] := by
  have waits : Task.Goes Step (Task.await (offer message flags)) now
      (fun _ events _ => events = [.sent message]) fun _ events _ => events = [] := by
    refine Task.goes_await (fun _ => True) (fun _ _ paused => .pass paused) ?_ trivial
    intro now _
    refine (goes_offer message flags now).mono ?_ fun _ _ _ ends => ends
    rintro (_ | _) events now' ends
    · exact ⟨ends, trivial⟩
    · exact ends
  unfold send Task.Goes
  rw [Task.self_bind]
  cases now.self with
  | endpoint ep => exact waits
  | slots chan =>
      simp only
      split
      · exact Task.goes_fail rfl
      · split
        · exact Task.goes_fail rfl
        · exact waits

/-- Asking to be notified moves no message. -/
theorem goes_rearm (now : Moment Transport σ) :
    Task.Goes Step rearm now (fun _ events _ => events = []) fun _ events _ => events = [] := by
  unfold rearm Task.Goes
  rw [Task.self_bind]
  cases across : now.self with
  | slots chan => exact Task.goes_pure rfl
  | endpoint ep =>
      have calm := step_calm across (ep.waiting_register now.scene.machine)
      refine Task.goes_bind ((Task.goes_request calm).mono ?_ ?_)
      · rintro ep' events now' ⟨rfl, same, armed⟩
        rw [across] at same
        obtain rfl := Endpoint.register_ok armed
        have calm : Calm now'.self now'.scene.machine (.endpoint { ep with armed := true })
            now'.scene.machine := by
          rw [same]
          exact .endpoint rfl rfl
        exact ⟨[], .single (.calm calm), rfl⟩
      · exact fun _ _ _ ends => ends.1

end Transport

end Conduit

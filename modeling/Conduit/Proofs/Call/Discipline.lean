/-
# What serving a message may do

Whatever the peer sends, serving one message is a trace of one of few shapes (`Treats`): no
message was there or it was lost, a reply was dropped, or a request was served. A request
that is served has a handler answer once at most, with arguments as the binding lists them,
and sends one reply if and only if it succeeds (`Service`).

`dispatch_disciplined` says so of every moment and whatever the others do. A reply that
carries a capability may be lost: if no slot can be had for the next capability, the kernel's
refusal is all that comes of it (`reply_may_be_lost`).
-/

import Conduit.Proofs.Call.EndToEnd
import Conduit.Proofs.Call.Reading
import Conduit.Proofs.Call.Standing
import Conduit.Proofs.Call.Traces

namespace Conduit

namespace Rpc

variable {η σ α : Type}

/-- One step of a party. -/
inductive Move [Handler η σ] : Moment (Rpc η) σ → List Event → Moment (Rpc η) σ → Prop
  /-- Its transport takes a step. -/
  | carry {now : Moment (Rpc η) σ} {inner : Moment Transport σ} {events : List Event}
      (step : Transport.Step ⟨now.self.transport, now.scene, now.turns⟩ events inner) :
      Move now events ⟨{ now.self with transport := inner.self }, inner.scene, inner.turns⟩
  /-- It notes something, but nothing of its transport or its handlers. -/
  | record {now : Moment (Rpc η) σ} {rpc : Rpc η} (transport : rpc.transport = now.self.transport)
      (handlers : rpc.handlers = now.self.handlers) : Move now [] { now with self := rpc }
  /-- The handler of a type runs, from the state it was left in. -/
  | answer {now : Moment (Rpc η) σ} {t : MessageType} {args : List Value} {handler : η}
      {outcome : Except Error (List Value)} {inner : Moment η σ}
      (known : now.self.handlers.get? t = some handler)
      (ran : Task.settle (Handler.respond args) ⟨handler, now.scene, now.turns⟩ =
        .ok outcome inner) :
      Move now [.answered t args] ⟨now.self.handle t inner.self, inner.scene, inner.turns⟩

/-- What is read from a message over the transport of a party. -/
def Reads (rpc : Rpc η) (m : Machine) (t : MessageType) (side : Side) (kinds : List Kind)
    (message : Message) (values : List Value) : Prop :=
  match rpc.transport with
  | .endpoint _ =>
      Paged.Reads (rpc.page? t side) m.memory kinds message.words.tail message.cap values
  | .slots _ => Inline.Reads kinds message.words.tail values

theorem Reads.kinds_eq {rpc : Rpc η} {m : Machine} {t : MessageType} {side : Side}
    {kinds : List Kind} {message : Message} {values : List Value}
    (reads : Reads rpc m t side kinds message values) : values.map Value.kind = kinds := by
  unfold Reads at reads
  split at reads
  · exact Paged.Reads.kinds_eq reads
  · exact Inline.Reads.kinds_eq reads

variable [Handler η σ] {now now' : Moment (Rpc η) σ}

/-! ### Parts of serving -/

/-- What the transport does, the party does. -/
theorem traced_carry {inner : Moment Transport σ} {events : List Event}
    (trace : Traced Transport.Step ⟨now.self.transport, now.scene, now.turns⟩ events inner) :
    Traced Move now events
      ⟨{ now.self with transport := inner.self }, inner.scene, inner.turns⟩ := by
  induction trace with
  | nil => exact .nil now
  | next _ last ih => exact .next ih (.carry last)

theorem goes_onTransport {task : Task Transport σ α} {done : α → List Event → Prop}
    {failed : Error → List Event → Prop}
    (goes : ∀ now, Task.Goes Transport.Step task now (fun a events _ => done a events)
      fun e events _ => failed e events) (now : Moment (Rpc η) σ) :
    Task.Goes Move (onTransport task) now
      (fun a events now' => done a events ∧
        now'.self = { now.self with transport := now'.self.transport })
      fun e events _ => failed e events := by
  apply Task.ends_within
  refine Task.Ends.mono (goes ⟨now.self.transport, now.scene, now.turns⟩) ?_ ?_
  · rintro a inner ⟨events, trace, ends⟩
    exact ⟨events, traced_carry trace, ends, rfl⟩
  · rintro stop inner fails e same
    obtain ⟨events, trace, ends⟩ := fails e same
    exact ⟨events, traced_carry trace, ends⟩

/-- A use of the machine that leaves the queues of an endpoint alone. -/
theorem move_machine {ep : Endpoint} {m : Machine} (across : now.self.transport = .endpoint ep)
    (same : m.kernel.waiting = now.scene.machine.kernel.waiting) :
    Move now [] { now with scene := { now.scene with machine := m } } := by
  have calm : Transport.Step ⟨now.self.transport, now.scene, now.turns⟩ [] _ :=
    Transport.step_calm across same
  exact .carry calm

theorem goes_encode (t : MessageType) (tag : UInt64) (values : List Value) (side : Side)
    (now : Moment (Rpc η) σ) :
    Task.Goes Move (encode t tag values side) now
      (fun message events _ => events = [] ∧ message.tag = tag) fun _ events _ => events = [] := by
  unfold encode Task.Goes
  rw [Task.self_bind]
  cases across : now.self.transport with
  | slots chan =>
      exact Task.goes_ofExcept (fun message encoded => ⟨rfl, Inline.tag_encode encoded⟩)
        fun _ _ => rfl
  | endpoint ep =>
      simp only [Task.machine_bind]
      cases encoded : Paged.encode t tag values (now.self.page? t side)
          now.scene.machine.memory with
      | error cause => exact Task.goes_halt (.panicked cause)
      | ok result =>
          obtain ⟨answer, memory⟩ := result
          have writes : Traced Move now []
              { now with scene := { now.scene with
                machine := { now.scene.machine with memory } } } :=
            .single (move_machine across rfl)
          cases answer with
          | error e =>
              rintro e' same
              exact ⟨[], writes, rfl⟩
          | ok message => exact ⟨[], writes, rfl, Paged.tag_encode encoded⟩

theorem goes_decode (t : MessageType) (kinds : List Kind) (message : Message) (side : Side)
    (now : Moment (Rpc η) σ) :
    Task.Goes Move (decode t kinds message side) now
      (fun values events now' => events = [] ∧ now' = now ∧
        Reads now.self now.scene.machine t side kinds message values)
      fun _ events _ => events = [] := by
  unfold decode Reads Task.Goes
  rw [Task.self_bind]
  cases now.self.transport with
  | slots chan =>
      exact Task.goes_ofExcept (fun values decoded => ⟨rfl, rfl, Inline.reads_of_read decoded⟩)
        fun _ _ => rfl
  | endpoint ep =>
      simp only [Task.machine_bind]
      cases decoded : Paged.decode t kinds message (now.self.page? t side)
          now.scene.machine.memory with
      | error cause => exact Task.goes_halt (.panicked cause)
      | ok result =>
          refine Task.goes_ofExcept (fun values same => ⟨rfl, rfl, ?_⟩) fun _ _ => rfl
          subst same
          exact Paged.reads_of_read decoded

theorem goes_transmit (message : Message) (now : Moment (Rpc η) σ) :
    Task.Goes Move (transmit message) now (fun _ events _ => events = [.sent message])
      fun _ events _ => events = [] :=
  (goes_onTransport (Transport.goes_send message _) now).mono (fun _ _ _ ends => ends.1)
    fun _ _ _ ends => ends

theorem goes_installPage (args : List Value) (now : Moment (Rpc η) σ) :
    Task.Goes Move (installPage args) now (fun _ events _ => events = [])
      fun _ events _ => events = [] := by
  unfold installPage
  split
  · split
    · rename_i type _ frame _ _ _
      unfold Task.Goes
      rw [Task.self_bind]
      cases across : now.self.transport with
      | slots chan => exact Task.goes_fail rfl
      | endpoint ep =>
          simp only [Transport.isEndpoint, Bool.not_true, Bool.false_eq_true, if_false]
          have calm := move_machine across (Machine.waiting_callMapFrame now.scene.machine frame)
          refine Task.goes_bind ((Task.goes_request calm).mono ?_ fun _ _ _ ends => ends.1)
          rintro page events mid ⟨rfl, -⟩
          split
          · exact Task.goes_fail rfl
          · -- What is recorded is a page, so neither the transport nor a handler changes.
            unfold Task.Goes
            rw [Task.self_bind]
            cases mid.self.entries.get? ⟨type⟩ with
            | none => exact Task.goes_fail rfl
            | some entry => exact ⟨[], .single (.record rfl rfl), rfl⟩
    · exact Task.goes_fail rfl
  · exact Task.goes_halt _

theorem goes_adoptPeer (args : List Value) (now : Moment (Rpc η) σ) :
    Task.Goes Move (adoptPeer args) now (fun _ events _ => events = [])
      fun _ events _ => events = [] := by
  unfold adoptPeer
  split
  · exact Task.goes_halt _
  · split
    · exact Task.goes_fail rfl
    · rename_i peer _
      unfold Task.Goes
      rw [Task.self_bind]
      cases across : now.self.transport with
      | slots chan => exact Task.goes_fail rfl
      | endpoint ep =>
          have calm : Transport.Calm now.self.transport now.scene.machine
              (.endpoint { ep with peer := some peer }) now.scene.machine := by
            rw [across]
            exact .endpoint rfl rfl
          have adopts : Transport.Step ⟨now.self.transport, now.scene, now.turns⟩ [] _ := .calm calm
          exact ⟨[], .single (.carry adopts), rfl⟩

/-- The handler of the type answers, or there is none. -/
theorem goes_answer (t : MessageType) (args : List Value) (now : Moment (Rpc η) σ) :
    Task.Goes Move (answer t args) now
      (fun _ events _ => (now.self.handlers.get? t).isSome = true ∧ events = [.answered t args])
      fun _ events _ => events = [] ∨
        (now.self.handlers.get? t).isSome = true ∧ events = [.answered t args] := by
  unfold answer Task.Goes
  rw [Task.self_bind]
  cases known : now.self.handlers.get? t with
  | none => exact Task.goes_fail (.inl rfl)
  | some handler =>
      simp only
      unfold Task.within
      cases ran : Handler.respond args ⟨handler, now.scene, now.turns⟩ with
      | ok rets inner =>
          exact ⟨_, .single (.answer known (Task.settle_ok ran)), rfl, rfl⟩
      | error stop inner =>
          rintro e rfl
          exact ⟨_, .single (.answer known (Task.settle_failed ran)), .inr ⟨rfl, rfl⟩⟩

/-! ### Requests -/

/-- How a request of type `t` may be served: the outcome and the events. The arguments that
a handler is given are as in `given`. -/
inductive Service (t : MessageType) (given : List Value → Prop) :
    Except Error Dispatch → List Event → Prop
  /-- The party served it itself and replied. -/
  | builtin (own : t = setupPage ∨ t = initiate) {reply : Message}
      (tagged : reply.tag = t.responseTag) : Service t given (.ok (.builtin t)) [.sent reply]
  /-- The handler answered and the party replied. -/
  | handled (foreign : ¬ (t = setupPage ∨ t = initiate)) {args : List Value} {reply : Message}
      (known : given args) (tagged : reply.tag = t.responseTag) :
      Service t given (.ok (.handled t)) [.answered t args, .sent reply]
  /-- It failed before a handler answered. -/
  | refused (e : Error) : Service t given (.error e) []
  /-- The handler failed, or its results could not be sent. -/
  | failed (foreign : ¬ (t = setupPage ∨ t = initiate)) (e : Error) {args : List Value}
      (known : given args) : Service t given (.error e) [.answered t args]

/-- The reply is sent, or there is no event. -/
theorem goes_finish (t : MessageType) (kinds : List Kind) (rets : List Value) (outcome : Dispatch)
    (now : Moment (Rpc η) σ) :
    Task.Goes Move (do
        Task.ofExcept (Value.check t kinds rets)
        let reply ← encode t t.responseTag rets .far
        transmit reply
        return outcome) now
      (fun dispatch events _ => dispatch = outcome ∧
        ∃ reply : Message, reply.tag = t.responseTag ∧ events = [.sent reply])
      fun _ events _ => events = [] := by
  refine Task.goes_bind (Task.goes_ofExcept (fun _ _ => ?_) fun _ _ => rfl)
  refine Task.goes_bind ((goes_encode t t.responseTag rets .far now).mono ?_ fun _ _ _ ends => ends)
  rintro reply events mid ⟨rfl, tagged⟩
  refine Task.goes_bind ((goes_transmit reply mid).mono ?_ fun _ _ _ ends => ends)
  rintro _ events last rfl
  exact Task.goes_pure ⟨rfl, reply, tagged, rfl⟩

/-- A request is served in one of four ways. -/
theorem goes_serveRequest (binding : Binding) (request : Message) (t : MessageType)
    (now : Moment (Rpc η) σ) :
    let given := fun args => (now.self.handlers.get? t).isSome = true ∧
      Reads now.self now.scene.machine t .far binding.args request args
    Task.Goes Move (serveRequest binding request t) now
      (fun dispatch events _ => Service t given (.ok dispatch) events)
      fun e events _ => Service t given (.error e) events := by
  intro given
  unfold serveRequest
  refine Task.goes_bind ((goes_decode t binding.args request .far now).mono ?_ ?_)
  · rintro args events _ ⟨rfl, rfl, reads⟩
    by_cases setup : t = setupPage
    · rw [if_pos setup]
      refine Task.goes_bind ((goes_installPage args _).mono ?_ ?_)
      · rintro _ events mid rfl
        refine (goes_finish t binding.rets [] _ mid).mono ?_ ?_
        · rintro dispatch events last ⟨rfl, reply, tagged, rfl⟩
          exact .builtin (.inl setup) tagged
        · rintro e events last rfl
          exact .refused e
      · rintro e events last rfl
        exact .refused e
    · rw [if_neg setup]
      by_cases given : t = initiate
      · rw [if_pos given]
        refine Task.goes_bind ((goes_adoptPeer args _).mono ?_ ?_)
        · rintro _ events mid rfl
          refine (goes_finish t binding.rets [] _ mid).mono ?_ ?_
          · rintro dispatch events last ⟨rfl, reply, tagged, rfl⟩
            exact .builtin (.inr given) tagged
          · rintro e events last rfl
            exact .refused e
        · rintro e events last rfl
          exact .refused e
      · rw [if_neg given]
        have foreign : ¬ (t = setupPage ∨ t = initiate) := not_or.mpr ⟨setup, given⟩
        refine Task.goes_bind ((goes_answer t args _).mono ?_ ?_)
        · rintro rets events mid ⟨known, rfl⟩
          refine (goes_finish t binding.rets rets _ mid).mono ?_ ?_
          · rintro dispatch events last ⟨rfl, reply, tagged, rfl⟩
            exact .handled foreign ⟨known, reads⟩ tagged
          · rintro e events last rfl
            exact .failed foreign e ⟨known, reads⟩
        · rintro e events last (rfl | ⟨known, rfl⟩)
          · exact .refused e
          · exact .failed foreign e ⟨known, reads⟩
  · rintro e events last rfl
    exact .refused e

/-! ### Messages -/

/-- The receive step takes this message and completes. -/
def Delivers (now : Moment (Rpc η) σ) (message : Message) : Prop :=
  ∃ mid, onTransport Transport.receive now = .ok (some message) mid

/-- How serving one message may go from `now` to `now'`: the outcome and the events. -/
inductive Treats (now now' : Moment (Rpc η) σ) : Except Error Dispatch → List Event → Prop
  /-- No message was there. -/
  | idle : Treats now now' (.ok .idle) []
  /-- The kernel refused before a message was taken. -/
  | refused (cause : ChannelError) : Treats now now' (.error (Error.ofChannel cause)) []
  /-- No slot could be had for the capability after this one. -/
  | lost {message : Message} (carries : message.cap.isSome = true) (cause : ChannelError)
      {mid : Moment (Rpc η) σ}
      (failed : onTransport Transport.receive now =
        .error (.failed (Error.ofChannel cause)) mid) :
      Treats now now' (.error (Error.ofChannel cause)) [.received message]
  /-- A reply was dropped. -/
  | reply {message : Message} (delivered : Delivers now message)
      (isReply : MessageType.isResponse message.tag = true) :
      Treats now now' (.ok (.strayResponse message.tag)) [.received message]
  /-- There is no binding for the request. -/
  | unbound {message : Message} (delivered : Delivers now message)
      (request : MessageType.isResponse message.tag = false) :
      Treats now now' (.error (.unknownBinding ⟨message.tag⟩)) [.received message]
  /-- A request was taken, and then served. -/
  | served {message : Message} (delivered : Delivers now message)
      (request : MessageType.isResponse message.tag = false)
      {binding : Binding} (bound : now.self.binding? ⟨message.tag⟩ = some binding)
      {mid : Moment (Rpc η) σ} (taken : Traced Move now [.received message] mid)
      (same : mid.self = { now.self with transport := mid.self.transport })
      {outcome : Except Error Dispatch} {events : List Event} (later : Traced Move mid events now')
      (service : Service ⟨message.tag⟩ (fun args =>
        (mid.self.handlers.get? ⟨message.tag⟩).isSome = true ∧
          Reads mid.self mid.scene.machine ⟨message.tag⟩ .far binding.args message args)
        outcome events) :
      Treats now now' outcome (.received message :: events)

/-- What happens afterwards without an event does not matter. -/
theorem Treats.later {now now' last : Moment (Rpc η) σ} {outcome : Except Error Dispatch}
    {events : List Event} (treats : Treats now now' outcome events)
    (trace : Traced Move now' [] last) : Treats now last outcome events := by
  cases treats with
  | idle => exact .idle
  | refused cause => exact .refused cause
  | lost carries cause failed => exact .lost carries cause failed
  | reply delivered isReply => exact .reply delivered isReply
  | unbound delivered request => exact .unbound delivered request
  | served delivered request bound taken same later service =>
      have later := later.append trace
      rw [List.append_nil] at later
      exact .served delivered request bound taken same later service

theorem goes_serveOne (now : Moment (Rpc η) σ) :
    Task.Goes Move serveOne now (fun dispatch events now' => Treats now now' (.ok dispatch) events)
      fun e events now' => Treats now now' (.error e) events := by
  have goes := goes_onTransport Transport.goes_receive now
  unfold serveOne
  unfold Task.Goes at goes ⊢
  cases ran : onTransport Transport.receive now with
  | error stop mid =>
      rw [ran] at goes
      rw [Task.bind_error ran]
      rintro e rfl
      obtain ⟨events, trace, ⟨cause, rfl⟩, rfl | ⟨message, carries, rfl⟩⟩ := goes e rfl
      · exact ⟨_, trace, .refused cause⟩
      · exact ⟨_, trace, .lost carries cause ran⟩
  | ok taken mid =>
      rw [ran] at goes
      rw [Task.bind_ok ran]
      obtain ⟨events, trace, ends, same⟩ := goes
      cases taken with
      | none =>
          obtain rfl : events = [] := ends
          exact ⟨_, trace, .idle⟩
      | some message =>
          obtain rfl : events = [.received message] := ends
          have delivered : Delivers now message := ⟨mid, ran⟩
          simp only [Task.self_bind]
          by_cases isReply : MessageType.isResponse message.tag = true
          · rw [if_pos isReply]
            split
            · exact ⟨_, trace.append (.single (.record rfl rfl)), .reply delivered isReply⟩
            · exact ⟨_, trace, .reply delivered isReply⟩
          · rw [if_neg isReply]
            have request := Bool.eq_false_iff.mpr isReply
            have kept : now.self.binding? ⟨message.tag⟩ = mid.self.binding? ⟨message.tag⟩ := by
              rw [same]
              rfl
            cases bound : mid.self.binding? ⟨message.tag⟩ with
            | none =>
                rintro e failed
                cases failed
                exact ⟨_, trace, .unbound delivered request⟩
            | some binding =>
                refine Task.Ends.mono (goes_serveRequest binding message ⟨message.tag⟩ mid) ?_ ?_
                · rintro dispatch now' ⟨events, later, service⟩
                  exact ⟨_, trace.append later,
                    .served delivered request (kept.trans bound) trace same later service⟩
                · rintro stop now' fails e failed
                  obtain ⟨events, later, service⟩ := fails e failed
                  exact ⟨_, trace.append later,
                    .served delivered request (kept.trans bound) trace same later service⟩

theorem goes_onMessage (now : Moment (Rpc η) σ) :
    Task.Goes Move onMessage now
      (fun dispatch events now' => Treats now now' (.ok dispatch) events)
      fun e events now' => Treats now now' (.error e) events := by
  unfold onMessage
  have later : ∀ (outcome : Except Error Dispatch) (events : List Event) (mid : Moment (Rpc η) σ),
      Treats now mid outcome events → Task.Goes Move (do
        let _ ← Task.settle (onTransport Transport.rearm)
        Task.ofExcept outcome) mid
      (fun dispatch more now' => Treats now now' (.ok dispatch) (events ++ more))
      fun e more now' => Treats now now' (.error e) (events ++ more) := by
    intro outcome events mid treats
    have rearm : Task.Goes Move (Task.settle (onTransport Transport.rearm)) mid
        (fun _ events _ => events = []) fun _ _ _ => False :=
      Task.goes_settle ((goes_onTransport Transport.goes_rearm mid).mono
        (fun _ _ _ ends => ends.1) fun _ _ _ ends => ends)
    refine Task.goes_bind (rearm.traced.mono ?_ fun _ _ _ ends => ends.2.elim)
    rintro _ _ last ⟨trace, rfl⟩
    have treats := treats.later trace
    refine Task.goes_ofExcept ?_ ?_
    · rintro dispatch rfl
      simpa using treats
    · rintro e rfl
      simpa using treats
  refine Task.goes_bind (Task.goes_settle ((goes_serveOne now).mono ?_ ?_))
  · exact fun dispatch events mid treats => later (.ok dispatch) events mid treats
  · exact fun e events mid treats => later (.error e) events mid treats

/-! ### The discipline -/

/-- The messages that were taken. -/
def receivedIn (events : List Event) : List Message :=
  events.filterMap fun
    | .received message => some message
    | _ => none

/-- The messages that were sent. -/
def sentIn (events : List Event) : List Message :=
  events.filterMap fun
    | .sent message => some message
    | _ => none

/-- The types whose handlers were run, and the arguments that they were given. -/
def answeredIn (events : List Event) : List (MessageType × List Value) :=
  events.filterMap fun
    | .answered t args => some (t, args)
    | _ => none

/-- The arguments are those that the binding of the message lists, read from the message at
a moment between the taking and the end; the type has a handler and is not one that the
party serves itself. -/
def Given (now now' : Moment (Rpc η) σ) (message : Message) (events : List Event)
    (args : List Value) : Prop :=
  let t : MessageType := ⟨message.tag⟩
  t ≠ setupPage ∧ t ≠ initiate ∧ (now.self.handlers.get? t).isSome = true ∧
    ∃ binding, now.self.binding? t = some binding ∧ args.map Value.kind = binding.args ∧
    ∃ mid later, events = .received message :: later ∧
      Traced Move now [.received message] mid ∧ Traced Move mid later now' ∧
      Reads mid.self mid.scene.machine t .far binding.args message args

/-- What may come of a message that was taken. -/
structure Discipline (now now' : Moment (Rpc η) σ) (message : Message)
    (outcome : Except Error Dispatch) (events : List Event) : Prop where
  /-- A reply has no handler answer and nothing sent, and is reported as a reply. -/
  reply : MessageType.isResponse message.tag = true → answeredIn events = [] ∧
    sentIn events = [] ∧ (Delivers now message → outcome = .ok (.strayResponse message.tag))
  /-- For any other message one message is sent exactly if it was served. -/
  sends : MessageType.isResponse message.tag = false →
    ((sentIn events).length = 1 ↔
      outcome = .ok (.handled ⟨message.tag⟩) ∨ outcome = .ok (.builtin ⟨message.tag⟩))
  /-- It is not reported as anything else. -/
  reports : MessageType.isResponse message.tag = false → ∀ dispatch, outcome = .ok dispatch →
    dispatch = .handled ⟨message.tag⟩ ∨ dispatch = .builtin ⟨message.tag⟩
  /-- What is sent is its reply. -/
  tagged : ∀ reply ∈ sentIn events, reply.tag = message.tag ||| MessageType.responseBit
  /-- A failure sends nothing. -/
  silent : ∀ e, outcome = .error e → sentIn events = []
  /-- At most one handler is run. -/
  once : (answeredIn events).length ≤ 1
  /-- It is the one for the message, and it is given what the message says. -/
  answered : ∀ t args, (t, args) ∈ answeredIn events →
    t = ⟨message.tag⟩ ∧ Given now now' message events args
  /-- A message that is not a reply leaves the mark, the shapes of the bindings and the set
  of handlers alone. -/
  kept : MessageType.isResponse message.tag = false → Alike now.self now'.self
  /-- A message that is not delivered was lost with its capability. -/
  lost : ¬ Delivers now message → message.cap.isSome = true ∧ answeredIn events = [] ∧
    sentIn events = [] ∧ ∃ cause, outcome = .error (Error.ofChannel cause)

/-- However a request is served, one message is sent exactly if that succeeds, and one
handler is run at most. -/
theorem Service.counts {t : MessageType} {given : List Value → Prop}
    {outcome : Except Error Dispatch} {events : List Event}
    (service : Service t given outcome events) :
    ((sentIn events).length = 1 ↔ outcome = .ok (.handled t) ∨ outcome = .ok (.builtin t)) ∧
      (∀ dispatch, outcome = .ok dispatch → dispatch = .handled t ∨ dispatch = .builtin t) ∧
      (∀ reply ∈ sentIn events, reply.tag = t.responseTag) ∧
      (∀ e, outcome = .error e → sentIn events = []) ∧
      (answeredIn events).length ≤ 1 ∧
      ∀ s args, (s, args) ∈ answeredIn events →
        s = t ∧ ¬ (t = setupPage ∨ t = initiate) ∧ given args := by
  cases service <;> simp_all [sentIn, answeredIn]

theorem Service.receivedIn {t : MessageType} {given : List Value → Prop}
    {outcome : Except Error Dispatch} {events : List Event}
    (service : Service t given outcome events) : receivedIn events = [] := by
  cases service <;> rfl

/-- A message that is no reply, or that is not delivered, leaves alone what serving a
request leaves alone. -/
theorem alike_of_returned {outcome : Except Error Dispatch}
    (other : ∀ message, Delivers now message → MessageType.isResponse message.tag = false)
    (returned : Task.settle onMessage now = .ok outcome now') : Alike now.self now'.self := by
  have unsettled : settled now.self (received? now) = now.self := by
    unfold received?
    cases ran : onTransport Transport.receive now with
    | error stop mid => rfl
    | ok taken mid =>
        cases taken with
        | none => rfl
        | some message => exact settled_request (Bool.eq_false_iff.mp (other message ⟨mid, ran⟩)) _
  have ends := ends_onMessage now
  rw [unsettled] at ends
  rcases ends.settled returned with ⟨_, -, alike⟩ | ⟨_, -, alike⟩
  · exact alike
  · exact alike

omit [Handler η σ] in
theorem Delivers.unique {message message' : Message} (first : Delivers now message)
    (second : Delivers now message') : message' = message := by
  obtain ⟨mid, ran⟩ := first
  obtain ⟨mid', ran'⟩ := second
  cases ran.symm.trans ran'
  rfl

/-- A message after whose taking nothing was done and nothing was served. -/
theorem Discipline.quiet {message : Message} {outcome : Except Error Dispatch}
    (reply : MessageType.isResponse message.tag = true → Delivers now message →
      outcome = .ok (.strayResponse message.tag))
    (request : MessageType.isResponse message.tag = false → ∃ e, outcome = .error e)
    (kept : MessageType.isResponse message.tag = false → Alike now.self now'.self)
    (lost : ¬ Delivers now message → message.cap.isSome = true ∧
      ∃ cause, outcome = .error (Error.ofChannel cause)) :
    Discipline now now' message outcome [.received message] where
  reply isReply := ⟨rfl, rfl, reply isReply⟩
  sends asks := by
    obtain ⟨e, rfl⟩ := request asks
    simp [sentIn]
  reports asks dispatch same := by
    obtain ⟨e, rfl⟩ := request asks
    cases same
  tagged _ mem := absurd mem List.not_mem_nil
  silent _ _ := rfl
  once := Nat.zero_le 1
  answered _ _ mem := absurd mem List.not_mem_nil
  kept := kept
  lost undelivered := ⟨(lost undelivered).1, rfl, rfl, (lost undelivered).2⟩

/-- Whatever is received, from whatever moment serving one message returns, and whatever the
others do: nothing was taken and nothing was done, or one message was taken and what came of
it is as it should be. -/
theorem dispatch_disciplined {outcome : Except Error Dispatch}
    (returned : Task.settle onMessage now = .ok outcome now') :
    ∃ events, Traced Move now events now' ∧
      ((receivedIn events = [] ∧ sentIn events = [] ∧ answeredIn events = [] ∧
          (outcome = .ok .idle ∨ ∃ cause, outcome = .error (Error.ofChannel cause))) ∨
        ∃ message, receivedIn events = [message] ∧
          Discipline now now' message outcome events) := by
  have ended : ∃ events, Traced Move now events now' ∧ Treats now now' outcome events := by
    rcases Task.Ends.settled (goes_onMessage now) returned with
      ⟨dispatch, rfl, events, trace, treats⟩ | ⟨e, rfl, fails⟩
    · exact ⟨events, trace, treats⟩
    · exact fails e rfl
  obtain ⟨events, trace, treats⟩ := ended
  refine ⟨events, trace, ?_⟩
  cases treats with
  | idle => exact .inl ⟨rfl, rfl, rfl, .inl rfl⟩
  | refused cause => exact .inl ⟨rfl, rfl, rfl, .inr ⟨cause, rfl⟩⟩
  | @lost message carries cause mid failed =>
      have undelivered : ∀ message, ¬ Delivers now message := by
        rintro message ⟨mid', ran⟩
        cases failed.symm.trans ran
      refine .inr ⟨message, rfl, .quiet ?_ ?_ ?_ ?_⟩
      · exact fun _ delivered => (undelivered _ delivered).elim
      · exact fun _ => ⟨_, rfl⟩
      · exact fun _ => alike_of_returned (fun _ delivered => (undelivered _ delivered).elim) returned
      · exact fun _ => ⟨carries, cause, rfl⟩
  | @reply message delivered isReply =>
      have other : ¬ MessageType.isResponse message.tag = false := by
        rw [isReply]
        exact Bool.noConfusion
      refine .inr ⟨message, rfl, .quiet ?_ ?_ ?_ ?_⟩
      · exact fun _ _ => rfl
      · exact fun request => (other request).elim
      · exact fun request => (other request).elim
      · exact fun undelivered => (undelivered delivered).elim
  | @unbound message delivered request =>
      refine .inr ⟨message, rfl, .quiet ?_ ?_ ?_ ?_⟩
      · exact fun isReply => by cases request.symm.trans isReply
      · exact fun _ => ⟨_, rfl⟩
      · exact fun _ => alike_of_returned
          (fun message' delivered' => delivered.unique delivered' ▸ request) returned
      · exact fun undelivered => (undelivered delivered).elim
  | @served message delivered request binding bound mid taken same outcome events later service =>
      obtain ⟨sends, reports, tagged, silent, once, answered⟩ := service.counts
      refine .inr ⟨message, congrArg (message :: ·) service.receivedIn, ?_⟩
      exact {
        reply := fun isReply => by cases request.symm.trans isReply
        sends := fun _ => sends
        reports := fun _ => reports
        tagged := tagged
        silent := silent
        once := once
        answered := fun t args mem => by
          obtain ⟨rfl, foreign, known, reads⟩ := answered t args mem
          obtain ⟨setup, given⟩ := not_or.mp foreign
          rw [same] at known
          exact ⟨rfl, setup, given, known, binding, bound, reads.kinds_eq, mid, events, rfl, taken,
            later, reads⟩
        kept := fun _ => alike_of_returned
          (fun message' delivered' => delivered.unique delivered' ▸ request) returned
        lost := fun undelivered => (undelivered delivered).elim }

/-! ### A party that is sent a message -/

omit [Handler η σ]

/-- A party with one binding and a tally for it, which a message waits for. Its endpoint
refuses to provide slots as planned. -/
def visited (message : Message) (plan : FaultPlan) : Moment (Rpc Tally) Unit where
  self :=
    let rpc : Rpc Tally := create (.endpoint { home := ⟨1⟩, peer := some ⟨0⟩ })
    let rpc := { rpc with
      entries := rpc.entries.insert ⟨10⟩ { binding := ⟨⟨10⟩, [.word], [.word]⟩ } }
    rpc.handle ⟨10⟩ ⟨0⟩
  scene :=
    let m := ((Endpoint.createPair (Machine.create 1)).2.onKernel_
      (·.inject ⟨1⟩ message.letter)).2
    ⟨m.planFaults (.endpoint ⟨1⟩ .allocSlot) plan, ()⟩
  turns := []

/-- A request is taken, its handler is run once, and its reply is sent. -/
theorem dispatch_disciplined_handled : ∃ (now' : Moment (Rpc Tally) Unit) (events : List Event)
    (message : Message),
    Task.settle onMessage (visited { words := [10, 7] } []) = .ok (.ok (.handled ⟨10⟩)) now' ∧
    now'.self.handlers.get? ⟨10⟩ = some ⟨1⟩ ∧
    Traced Move (visited { words := [10, 7] } []) events now' ∧ receivedIn events = [message] ∧
    Discipline (visited { words := [10, 7] } []) now' message (.ok (.handled ⟨10⟩)) events := by
  have ran : (Task.success? (onMessage (visited { words := [10, 7] } []))).map
      (fun done => (done.1, done.2.self.handlers.get? ⟨10⟩)) =
      some (.handled ⟨10⟩, some ⟨1⟩) := by decide +kernel
  obtain ⟨⟨dispatch, now'⟩, returned, same⟩ := Option.map_eq_some_iff.mp ran
  simp only [Prod.mk.injEq] at same
  obtain ⟨rfl, tallied⟩ := same
  have returned := Task.settle_ok (Task.success?_eq_some returned)
  obtain ⟨events, trace, ⟨-, -, -, idle | ⟨cause, failed⟩⟩ | ⟨message, received, discipline⟩⟩ :=
    dispatch_disciplined returned
  · cases idle
  · cases failed
  · exact ⟨now', events, message, returned, tallied, trace, received, discipline⟩

/-- A reply that carries a capability waits, nobody else acts, and serving it takes it but
fails, since no slot can be had for the next capability. -/
theorem reply_may_be_lost : ∃ (now now' : Moment (Rpc Tally) Unit) (letter : Letter)
    (outcome : Except Error Dispatch),
    now.self.transport = .endpoint { home := ⟨1⟩, peer := some ⟨0⟩ } ∧ now.turns = [] ∧
    now.scene.machine.kernel.waiting ⟨1⟩ = [letter] ∧
    MessageType.isResponse letter.tag = true ∧
    Task.settle onMessage now = .ok outcome now' ∧
    now'.scene.machine.kernel.waiting ⟨1⟩ = [] ∧
    outcome ≠ .ok (.strayResponse letter.tag) := by
  let reply : Message := { words := [0x8000000000000000], cap := some ⟨1⟩ }
  have ran : (Task.failure? (onMessage (visited reply [some .noSpace]))).map
      (fun done => (done.1, done.2.scene.machine.kernel.waiting ⟨1⟩)) =
      some (.kernel .noSpace, []) := by decide +kernel
  obtain ⟨⟨e, now'⟩, failed, same⟩ := Option.map_eq_some_iff.mp ran
  simp only [Prod.mk.injEq] at same
  obtain ⟨rfl, taken⟩ := same
  exact ⟨_, now', reply.letter, _, rfl, rfl, by decide +kernel, by decide +kernel,
    Task.settle_failed (Task.failure?_eq_some failed), taken, fun same => by cases same⟩

end Rpc

end Conduit

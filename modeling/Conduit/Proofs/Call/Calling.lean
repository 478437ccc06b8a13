/-
# What a call sends and takes

A call is a trace of few messages, whatever comes in and whatever the others do: at most one
request to map a page with its reply, then the request of the call, and then the message that is
accepted as its reply, which is known by its first word (`goes_call`). A call that fails may
have stopped anywhere on the way.
-/

import Conduit.Proofs.Call.Conduct.Requests

namespace Conduit

namespace Transport

variable {σ : Type}

/-- Looking whether a message waits moves none. -/
theorem goes_canReceive (now : Moment Transport σ) :
    Task.Goes Step canReceive now (fun _ events _ => events = []) fun _ events _ => events = [] := by
  unfold canReceive Task.Goes
  rw [Task.self_bind]
  cases now.self with
  | endpoint ep => exact ⟨[], .nil _, rfl⟩
  | slots chan =>
      simp only [Task.machine_bind]
      cases chan.canReceive now.scene.machine with
      | error cause => exact Task.goes_halt (.panicked cause)
      | ok waiting => exact ⟨[], .nil _, rfl⟩

end Transport

namespace Rpc

variable {η σ : Type} [Handler η σ] {now now' : Moment (Rpc η) σ}

omit [Handler η σ] in
theorem sentIn_append (events more : List Event) :
    sentIn (events ++ more) = sentIn events ++ sentIn more := List.filterMap_append

/-- A turn of the others is a step of the transport. -/
theorem move_pause (paused : Task.pause now = .ok () now') : Move now [] now' := by
  obtain ⟨turn, rest, scene, turns, passed, rfl⟩ := Task.turn_of_pause paused
  have step : Transport.Step ⟨now.self.transport, now.scene, now.turns⟩ []
      ⟨now.self.transport, scene, rest⟩ := .pass (Task.pause_ok turns passed)
  exact .carry step

/-- What the party notes without changing its transport or its handlers is a step. -/
theorem goes_note_bind {α : Type} {change : Rpc η → Rpc η} {next : Unit → Task (Rpc η) σ α}
    {done : α → List Event → Moment (Rpc η) σ → Prop}
    {failed : Error → List Event → Moment (Rpc η) σ → Prop}
    (transport : (change now.self).transport = now.self.transport)
    (handlers : (change now.self).handlers = now.self.handlers)
    (goes : Task.Goes Move (next ()) { now with self := change now.self } done failed) :
    Task.Goes Move (Task.modifySelf change >>= next) now done failed := by
  have notes : Move now [] { now with self := change now.self } := .record transport handlers
  unfold Task.Goes
  rw [Task.modifySelf_bind]
  exact Task.Goes.after (.single notes) goes

/-- One look for the reply. -/
theorem goes_pollReply (now : Moment (Rpc η) σ) :
    Task.Goes Move pollReply now (fun found events _ => events = Transport.taking found)
      fun _ events _ => sentIn events = [] := by
  refine Task.goes_bind ((goes_onTransport Transport.goes_canReceive now).mono ?_ ?_)
  · rintro (_ | _) events mid ⟨rfl, -⟩
    · exact Task.goes_pure rfl
    · refine Task.goes_bind (Task.goes_settle
        ((goes_onTransport Transport.goes_receive mid).mono ?_ ?_))
      · rintro found events mid' ⟨rfl, -⟩
        refine Task.goes_pure ?_
        simp
      · rintro e events mid' ⟨-, none⟩
        have silent : sentIn events = [] := by
          rcases none with rfl | ⟨message, -, rfl⟩ <;> rfl
        exact goes_note_bind rfl rfl (Task.goes_fail (by simpa using silent))
  · rintro e events mid rfl
    rfl

/-- A request is sent, and one message is taken, which is its reply by the first word. -/
theorem goes_transact (t : MessageType) (request : Message) (now : Moment (Rpc η) σ) :
    Task.Goes Move (transact t request) now
      (fun reply events _ => reply.tag = t.responseTag ∧ sentIn events = [request] ∧
        receivedIn events = [reply])
      fun _ events _ => ∀ message ∈ sentIn events, message = request := by
  have awaited (mid : Moment (Rpc η) σ) : Task.Goes Move (Task.await pollReply) mid
      (fun reply events _ => events = [.received reply]) fun _ events _ => sentIn events = [] := by
    refine Task.goes_await (fun _ => True) (fun _ _ => move_pause) (fun mid _ => ?_) trivial
    refine (goes_pollReply mid).mono ?_ fun _ _ _ ends => ends
    rintro (_ | reply) events mid' rfl
    · exact ⟨rfl, trivial⟩
    · rfl
  refine Task.goes_bind ((goes_transmit request now).mono ?_ ?_)
  · rintro _ events mid rfl
    refine goes_note_bind rfl rfl (Task.goes_bind ((awaited _).mono ?_ ?_))
    · rintro reply events mid' rfl
      by_cases replies : reply.tag = t.responseTag
      · rw [if_neg (by simpa using replies)]
        exact goes_note_bind rfl rfl (Task.goes_pure ⟨replies, rfl, rfl⟩)
      · rw [if_pos replies]
        exact Task.goes_bind (Task.goes_fail fun message mem => List.mem_singleton.mp mem)
    · rintro e events mid' silent message mem
      rw [sentIn_append, silent, List.append_nil] at mem
      exact List.mem_singleton.mp mem
  · rintro e events mid rfl message mem
    cases mem

/-- A use of the machine over an endpoint that leaves the queues alone. -/
theorem move_calm {m : Machine} (across : now.self.transport.isEndpoint = true)
    (same : m.kernel.waiting = now.scene.machine.kernel.waiting) :
    Move now [] { now with scene := { now.scene with machine := m } } := by
  cases known : now.self.transport with
  | endpoint ep => exact move_machine known same
  | slots chan =>
      rw [known] at across
      cases across

/-- A page is set up by one request. -/
theorem goes_preparePage (t : MessageType) (across : now.self.transport.isEndpoint = true) :
    Task.Goes Move (preparePage t) now
      (fun _ events _ => ∀ message ∈ sentIn events, message.tag = setupPage.code)
      fun _ events _ => ∀ message ∈ sentIn events, message.tag = setupPage.code := by
  have none : ∀ message ∈ sentIn [], message.tag = setupPage.code := fun _ mem =>
    absurd mem List.not_mem_nil
  unfold preparePage Task.Goes
  rw [Task.self_bind]
  cases allocated : now.scene.machine.callAllocFrame now.self.pageSize with
  | error cause =>
      rw [Task.bind_error (Task.onMachine_panic allocated)]
      rintro e same
      cases same
  | ok result =>
      obtain ⟨answer, m⟩ := result
      rw [Task.bind_ok (Task.onMachine_ok allocated)]
      refine Task.Goes.after (.single (move_calm across (Machine.waiting_callAllocFrame allocated))) ?_
      cases answer with
      | error e => exact Task.goes_bind (Task.goes_fail none)
      | ok frame =>
          simp only [pure_bind]
          let mid : Moment (Rpc η) σ := { now with scene := { now.scene with machine := m } }
          have asks : Move mid [] { mid with
              scene := { mid.scene with machine := (m.callMapFrame frame).2 } } :=
            move_calm across (Machine.waiting_callMapFrame m frame)
          refine Task.goes_bind ((Task.goes_request asks).mono ?_ ?_)
          · rintro page events mid ⟨rfl, -, -⟩
            unfold Task.Goes
            rw [Task.machine_bind, encode_setupRequest]
            simp only [Task.orPanic_ok, pure_bind, Task.setMachine_bind, Task.ofExcept]
            refine Task.goes_bind ((goes_transact setupPage (setupRequest t now.self.pageSize frame)
              mid).mono ?_ ?_)
            · rintro reply events mid' ⟨-, sent, -⟩
              refine ⟨[], .single (.record rfl rfl), fun message mem => ?_⟩
              simp only [List.nil_append, List.append_nil, sent, List.mem_singleton] at mem
              rw [mem]
              rfl
            · rintro e events mid' sent message mem
              rw [sent message mem]
              rfl
          · rintro e events mid ⟨rfl, -⟩
            exact none

/-- The messages of a call that returned: requests to map a page, and then its own request, and
last of all its reply. -/
structure Called (t : MessageType) (events : List Event) : Prop where
  requests : ∃ setups request, sentIn events = setups ++ [request] ∧ request.tag = t.code ∧
    ∀ message ∈ setups, message.tag = setupPage.code
  accepted : ∃ others reply, receivedIn events = others ++ [reply] ∧ reply.tag = t.responseTag

/-- Once what a call needs is there, its request is sent and its reply is read. -/
theorem goes_exchange (t : MessageType) (args : List Value) (kinds : List Kind)
    {before : List Event} (setups : ∀ message ∈ sentIn before, message.tag = setupPage.code)
    (now : Moment (Rpc η) σ) :
    Task.Goes Move (do
        let request ← encode t t.code args .near
        let reply ← transact t request
        decode t kinds reply .near) now (fun _ events _ => Called t (before ++ events))
      fun _ events _ => ∀ message ∈ sentIn (before ++ events),
        message.tag = setupPage.code ∨ message.tag = t.code := by
  have failing : ∀ events, (∀ message ∈ sentIn events, message.tag = t.code) →
      ∀ message ∈ sentIn (before ++ events),
        message.tag = setupPage.code ∨ message.tag = t.code := by
    intro events own message mem
    rw [sentIn_append, List.mem_append] at mem
    exact mem.imp (setups message) (own message)
  refine Task.goes_bind ((goes_encode t t.code args .near now).mono ?_ ?_)
  · rintro request events mid ⟨rfl, tagged⟩
    refine Task.goes_bind ((goes_transact t request mid).mono ?_ ?_)
    · rintro reply events mid ⟨replies, sent, received⟩
      refine (goes_decode t kinds reply .near mid).mono ?_ ?_
      · rintro rets more last ⟨rfl, -⟩
        rw [List.append_nil, List.nil_append]
        refine ⟨⟨sentIn before, request, ?_, tagged, setups⟩,
          ⟨receivedIn before, reply, ?_, replies⟩⟩
        · rw [sentIn_append, sent]
        · rw [receivedIn_append, received]
      · rintro e more last rfl
        refine failing _ fun message mem => ?_
        rw [List.append_nil, List.nil_append, sent, List.mem_singleton] at mem
        rw [mem, tagged]
    · rintro e events mid sent
      refine failing _ fun message mem => ?_
      rw [sent message mem, tagged]
  · rintro e events mid rfl
    exact failing _ fun message mem => absurd mem List.not_mem_nil

/-- A call sends its own request after those that set up a page, and accepts one message as its
reply; if it fails, it may not have sent its request. -/
theorem goes_call (t : MessageType) (args : List Value) (now : Moment (Rpc η) σ) :
    Task.Goes Move (call t args) now (fun _ events _ => Called t events)
      fun _ events _ => ∀ message ∈ sentIn events,
        message.tag = setupPage.code ∨ message.tag = t.code := by
  have none : ∀ message ∈ sentIn [], message.tag = setupPage.code ∨ message.tag = t.code :=
    fun _ mem => absurd mem List.not_mem_nil
  have noSetup : ∀ message ∈ sentIn [], message.tag = setupPage.code := fun _ mem =>
    absurd mem List.not_mem_nil
  unfold call Task.Goes
  rw [Task.self_bind]
  split
  · exact Task.goes_bind (Task.goes_fail none)
  cases now.self.binding? t with
  | none => exact Task.goes_fail none
  | some binding =>
      refine Task.goes_bind (Task.goes_ofExcept (fun _ _ => ?_) fun _ _ => none)
      by_cases capped : (!now.self.transport.isEndpoint && binding.usesCaps) = true
      · rw [if_pos capped]
        exact Task.goes_bind (Task.goes_fail none)
      rw [if_neg capped]
      split
      case isTrue needed =>
        simp only [Bool.and_eq_true] at needed
        refine Task.goes_bind ((goes_preparePage t needed.1.1).mono ?_ ?_)
        · rintro _ events mid setups
          exact goes_exchange t args binding.rets setups mid
        · exact fun _ events _ setups message mem => .inl (setups message mem)
      case isFalse => exact goes_exchange t args binding.rets noSetup now

end Rpc

end Conduit

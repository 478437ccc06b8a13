/-
# What serving leaves alone

Serving a request may map a page of the peer, change the peer, and change the state of a
handler. It leaves the mark of an owed reply, the shapes of the bindings and the set of the
types with a handler as they are (`Alike`), however it ends and whatever the others do. So
what a message does to them is what taking it does: the reply that is owed takes away the
mark (`ends_onMessage`).
-/

import Conduit.Call.Rpc
import Conduit.Proofs.Task.Anyhow

namespace Conduit.Rpc

variable {η σ α : Type} {rpc : Rpc η}

/-- The same reply is owed, the bindings have the same shapes, and the same types have
a handler. -/
structure Alike (rpc rpc' : Rpc η) : Prop where
  awaiting : rpc'.awaiting = rpc.awaiting
  shapes : ∀ t, rpc'.binding? t = rpc.binding? t
  handled : ∀ t, (rpc'.handlers.get? t).isSome = (rpc.handlers.get? t).isSome

namespace Alike

theorem refl (rpc : Rpc η) : Alike rpc rpc := ⟨rfl, fun _ => rfl, fun _ => rfl⟩

theorem trans {rpc' rpc'' : Rpc η} (first : Alike rpc rpc') (second : Alike rpc' rpc'') :
    Alike rpc rpc'' where
  awaiting := second.awaiting.trans first.awaiting
  shapes t := (second.shapes t).trans (first.shapes t)
  handled t := (second.handled t).trans (first.handled t)

theorem transport (rpc : Rpc η) (transport : Transport) : Alike rpc { rpc with transport } :=
  ⟨rfl, fun _ => rfl, fun _ => rfl⟩

/-- A page that the peer set up is not part of the shape. -/
theorem farPage {t : MessageType} {entry : Entry} (known : rpc.entries.get? t = some entry)
    (farPage : Option View) :
    Alike rpc { rpc with entries := rpc.entries.insert t { entry with farPage } } := by
  refine ⟨rfl, fun other => ?_, fun _ => rfl⟩
  unfold binding?
  rw [Table.get?_insert]
  split
  · rename_i same
    rw [← same, known]
    rfl
  · rfl

/-- A handler that is there may change its state. -/
theorem handle {t : MessageType} {handler : η} (known : rpc.handlers.get? t = some handler)
    (handler' : η) : Alike rpc (rpc.handle t handler') := by
  refine ⟨rfl, fun _ => rfl, fun other => ?_⟩
  unfold Rpc.handle
  simp only [Table.get?_insert]
  split
  · rename_i same
    rw [← same, known]
    rfl
  · rfl

end Alike

/-- The party is alike the given one again, however the task ends. -/
abbrev KeepsAlike (rpc : Rpc η) (task : Task (Rpc η) σ α) : Prop :=
  Task.KeepsSelf (Alike rpc) task

theorem keepsAlike_onTransport (task : Task Transport σ α) :
    KeepsAlike rpc (onTransport task) :=
  .within (fun transport _ alike => alike.trans (.transport _ transport)) task

theorem keepsAlike_transmit (message : Message) :
    KeepsAlike rpc (transmit message : Task (Rpc η) σ Unit) := keepsAlike_onTransport _

theorem keepsAlike_encode (t : MessageType) (tag : UInt64) (values : List Value) (side : Side) :
    KeepsAlike rpc (encode t tag values side : Task (Rpc η) σ Message) := by
  refine .bind .self fun party => ?_
  cases party.transport with
  | endpoint ep =>
      exact .bind .machine fun _ => .bind (.orPanic _) fun _ => .bind (.setMachine _) fun _ =>
        .ofExcept _
  | slots chan => exact .ofExcept _

theorem keepsAlike_decode (t : MessageType) (kinds : List Kind) (message : Message) (side : Side) :
    KeepsAlike rpc (decode t kinds message side : Task (Rpc η) σ (List Value)) := by
  refine .bind .self fun party => ?_
  cases party.transport with
  | endpoint ep => exact .bind .machine fun _ => .bind (.orPanic _) fun _ => .ofExcept _
  | slots chan => exact .ofExcept _

theorem keepsAlike_installPage (args : List Value) :
    KeepsAlike rpc (installPage args : Task (Rpc η) σ Unit) := by
  unfold installPage
  split
  · split
    · rename_i type _ _ _ _ _
      refine .bind .self fun party => ?_
      split
      · exact .fail_bind _ _
      · refine .bind (.request _) fun page => ?_
        split
        · exact .fail_bind _ _
        · -- The entry that changes is read from the party it is put back into.
          refine .self_bind fun party alike now same => ?_
          subst same
          cases known : now.self.entries.get? ⟨type⟩ with
          | none => exact alike
          | some entry => exact alike.trans (.farPage known _)
    · exact .fail _
  · exact .halt _

theorem keepsAlike_adoptPeer (args : List Value) :
    KeepsAlike rpc (adoptPeer args : Task (Rpc η) σ Unit) := by
  unfold adoptPeer
  split
  · exact .halt _
  · split
    · exact .fail _
    · refine .self_bind fun party alike now same => ?_
      subst same
      cases now.self.transport with
      | slots chan => exact alike
      | endpoint ep => exact alike.trans (.transport _ _)

section Serving

variable [Handler η σ]

theorem keepsAlike_answer (t : MessageType) (args : List Value) :
    KeepsAlike rpc (answer t args : Task (Rpc η) σ (List Value)) := by
  refine .self_bind fun party alike now same => ?_
  subst same
  cases known : now.self.handlers.get? t with
  | none => exact alike
  | some handler =>
      apply Task.ends_within
      cases Handler.respond args ⟨handler, now.scene, now.turns⟩ with
      | ok rets inner => exact alike.trans (.handle known _)
      | error stop inner => exact alike.trans (.handle known _)

theorem keepsAlike_serveRequest (binding : Binding) (request : Message) (t : MessageType) :
    KeepsAlike rpc (serveRequest binding request t : Task (Rpc η) σ Dispatch) := by
  have finish : ∀ (rets : List Value) (outcome : Dispatch), KeepsAlike rpc (do
      Task.ofExcept (Value.check t binding.rets rets)
      let reply ← encode t t.responseTag rets .far
      transmit reply
      return outcome : Task (Rpc η) σ Dispatch) := fun rets outcome =>
    .bind (.ofExcept _) fun _ => .bind (keepsAlike_encode _ _ _ _) fun reply =>
      .bind (keepsAlike_transmit reply) fun _ => .pure _
  refine .bind (keepsAlike_decode _ _ _ _) fun args => ?_
  split
  · exact .bind (keepsAlike_installPage args) fun _ => finish [] _
  · split
    · exact .bind (keepsAlike_adoptPeer args) fun _ => finish [] _
    · exact .bind (keepsAlike_answer t args) fun rets => finish rets _

/-! ### Taking the message -/

/-- The message that the transport gives when it is asked for one. -/
def received? (now : Moment (Rpc η) σ) : Option Message :=
  match onTransport Transport.receive now with
  | .ok message _ => message
  | .error _ _ => none

/-- The mark after a message was taken: a reply that is owed is owed no more. -/
def markAfter (taken : Option Message) (mark : Option MessageType) : Option MessageType :=
  match taken with
  | none => mark
  | some message =>
      if mark.map MessageType.responseTag = some message.tag then none else mark

/-- A request is not the reply that is owed. -/
theorem markAfter_request {message : Message}
    (request : ¬ MessageType.isResponse message.tag = true) (mark : Option MessageType) :
    markAfter (some message) mark = mark := by
  refine if_neg fun owed => request ?_
  obtain ⟨t, -, same⟩ := Option.map_eq_some_iff.mp owed
  rw [← same]
  exact t.isResponse_responseTag

/-- The party once it has taken a message, or none. -/
def settled (rpc : Rpc η) (taken : Option Message) : Rpc η :=
  { rpc with awaiting := markAfter taken rpc.awaiting }

theorem settled_request {message : Message}
    (request : ¬ MessageType.isResponse message.tag = true) (rpc : Rpc η) :
    settled rpc (some message) = rpc := by
  unfold settled
  rw [markAfter_request request]

/-- The party is alike the given one, whatever came of the task. -/
abbrev EndsAlike (result : EStateM.Result Stop (Moment (Rpc η) σ) α) (rpc : Rpc η) : Prop :=
  Task.Ends result (fun _ now => Alike rpc now.self) fun _ now => Alike rpc now.self

/-- Serving a message does no more to what it leaves alone than taking the message. -/
theorem ends_serveOne (now : Moment (Rpc η) σ) :
    EndsAlike (serveOne now) (settled now.self (received? now)) := by
  have kept := keepsAlike_onTransport Transport.receive now (.refl now.self)
  unfold serveOne received?
  cases taken : onTransport Transport.receive now with
  | error stop now' =>
      rw [taken] at kept
      rw [Task.bind_error taken]
      exact kept
  | ok message now' =>
      rw [taken] at kept
      rw [Task.bind_ok taken]
      cases message with
      | none => exact kept
      | some message =>
          simp only [Task.self_bind]
          by_cases reply : MessageType.isResponse message.tag = true
          · rw [if_pos reply, kept.awaiting]
            unfold settled markAfter
            by_cases owed : now.self.awaiting.map MessageType.responseTag = some message.tag
            · simp only [if_pos owed]
              exact ⟨rfl, kept.shapes, kept.handled⟩
            · simp only [if_neg owed]
              exact kept
          · rw [if_neg reply, settled_request reply]
            cases now'.self.binding? ⟨message.tag⟩ with
            | none => exact kept
            | some binding => exact keepsAlike_serveRequest binding message _ now' kept

theorem ends_onMessage (now : Moment (Rpc η) σ) :
    EndsAlike (onMessage now) (settled now.self (received? now)) := by
  unfold onMessage
  apply Task.ends_bind
  apply Task.ends_settle
  have later : ∀ (outcome : Except Error Dispatch),
      KeepsAlike (settled now.self (received? now)) (do
        let _ ← Task.settle (onTransport Transport.rearm)
        Task.ofExcept outcome : Task (Rpc η) σ Dispatch) := fun outcome =>
    (keepsAlike_onTransport Transport.rearm).settle.bind fun _ => .ofExcept outcome
  refine (ends_serveOne now).mono (fun dispatch now' alike => later (.ok dispatch) now' alike) ?_
  rintro (e | h) now' alike
  · exact later (.error e) now' alike
  · exact alike

/-- Serving a message ends as taking and treating it does, once it was asked to be notified of
the next one. -/
theorem settle_onMessage {outcome : Except Error Dispatch} {now now' : Moment (Rpc η) σ}
    (returned : Task.settle onMessage now = .ok outcome now') :
    ∃ (last : Moment (Rpc η) σ) (rearmed : Except Error Unit),
      Task.settle serveOne now = .ok outcome last ∧
      Task.settle (onTransport Transport.rearm) last = .ok rearmed now' := by
  let ended (outcome : Except Error Dispatch) (after : Moment (Rpc η) σ) : Prop :=
    ∃ last rearmed, Task.settle serveOne now = .ok outcome last ∧
      Task.settle (onTransport Transport.rearm) last = .ok rearmed after
  have ends : Task.Ends (onMessage now) (fun dispatch => ended (.ok dispatch))
      fun stop after => ∀ e, stop = .failed e → ended (.error e) after := by
    unfold onMessage
    cases served : Task.settle serveOne now with
    | error stop last =>
        rw [Task.bind_error served]
        rintro e rfl
        unfold Task.settle at served
        split at served <;> cases served
    | ok outcome last =>
        rw [Task.bind_ok served]
        cases asked : Task.settle (onTransport Transport.rearm) last with
        | error stop after =>
            rw [Task.bind_error asked]
            rintro e rfl
            unfold Task.settle at asked
            split at asked <;> cases asked
        | ok rearmed after =>
            rw [Task.bind_ok asked]
            cases outcome with
            | ok dispatch => exact ⟨last, rearmed, served, asked⟩
            | error e =>
                rintro e' same
                cases same
                exact ⟨last, rearmed, served, asked⟩
  rcases ends.settled returned with ⟨dispatch, rfl, ended⟩ | ⟨e, rfl, fails⟩
  · exact ended
  · exact fails e rfl

end Serving

end Conduit.Rpc

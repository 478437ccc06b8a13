/-
# Operations on a machine that refuses more often

Every operation of a transport, of a party that makes and serves calls and of a stream is
`Unhurried`, by the rules of `Conduit.Proofs.Delay.Tasks`. The machine is asked to send at
one place and to receive at one place, and both are polls that are made again when they are
refused. A handler is any task that is unhurried itself.
-/

import Conduit.Call.Rpc
import Conduit.Proofs.Delay.Tasks
import Conduit.Stream.Receive
import Mathlib.Tactic.Ring

namespace Conduit

open Machine (Delayed)
open Conduit.Task (Unhurried Retries)

variable {η σ α : Type} {home : Cap}

/-! ### Transports -/

namespace Transport

theorem backlogLimit_delayed {n : Nat} {m late : Machine} (delayed : Delayed home n m late)
    (t : Transport) : t.backlogLimit late = t.backlogLimit m := by
  unfold backlogLimit
  rw [delayed.kernel]

theorem unhurried_canReceive : Unhurried home (canReceive : Task Transport σ Bool) := by
  refine .bind .self fun t => ?_
  cases t with
  | endpoint ep =>
      refine .reads (fun n m late delayed => ?_) fun m => .pure _
      rw [ep.canRecv_delayed delayed]
  | slots chan =>
      refine .reads (fun n m late delayed => ?_) fun m => .orPanic _
      rw [chan.canReceive_delayed delayed]

theorem retries_offer (message : Message) (flags : SendFlags) :
    Retries home (offer message flags : Task Transport σ (Option Unit)) := by
  refine .self fun t => ?_
  cases t with
  | endpoint ep =>
      refine .asking (ep.retriable_send flags _) rfl fun answer => ?_
      cases answer with
      | ok u => exact .pure _
      | error e =>
          cases e with
          | transient => exact .pure _
          | _ => exact .fail _
  | slots chan =>
      refine Unhurried.retries ?_
      refine .update (fun _ (c : Except Error Bool × SlotChannel × Machine) => c.2.2)
        (fun n m late c delayed used => ?_) fun c => ?_
      · obtain ⟨sent, chan', m'⟩ := c
        obtain ⟨late', used', delayed'⟩ := chan.send_delayed delayed used
        exact ⟨(sent, chan', late'), used', rfl, delayed'⟩
      · obtain ⟨sent, chan', m'⟩ := c
        refine .bind (.setSelf _) fun _ => ?_
        cases sent with
        | error e => exact .pure _
        | ok room =>
            cases room with
            | false => exact .pure _
            | true => exact .pure _

theorem unhurried_send (message : Message) (flags : SendFlags) :
    Unhurried home (send message flags : Task Transport σ Unit) := by
  refine .bind .self fun t => ?_
  cases t with
  | endpoint ep => exact .await (retries_offer message flags)
  | slots chan =>
      exact .check (.check (.await (retries_offer message flags)))

theorem unhurried_receive : Unhurried home (receive : Task Transport σ (Option Message)) := by
  refine .bind .self fun t => ?_
  cases t with
  | endpoint ep =>
      refine .bind (.awaitAnswer ep.retriable_recv) fun answer => ?_
      cases answer with
      | ok letter => exact .ite (.bind (.request ep.heedless_allocRecvSlot) fun _ => .pure _) (.pure _)
      | error e =>
          cases e with
          | noMessage => exact .pure _
          | _ => exact .fail _
  | slots chan =>
      refine .update (fun _ (c : Option (List UInt64) × SlotChannel × Machine) => c.2.2)
        (fun n m late c delayed used => ?_) fun c => ?_
      · obtain ⟨words, chan', m'⟩ := c
        obtain ⟨late', used', delayed'⟩ := chan.receive_delayed delayed used
        exact ⟨(words, chan', late'), used', rfl, delayed'⟩
      · exact .bind (.setSelf _) fun _ => .pure _

theorem unhurried_takeEvent : Unhurried home (takeEvent : Task Transport σ Bool) := by
  refine .bind .self fun t => ?_
  cases t with
  | endpoint ep =>
      refine .reads (fun n m late delayed => ?_) fun m => .bind (.setSelf _) fun _ => .pure _
      rw [ep.takeEvent_delayed delayed]
  | slots chan =>
      exact .onMachine fun n m late rung m' delayed taken =>
        chan.takeNotification_delayed delayed taken

theorem unhurried_rearm : Unhurried home (rearm : Task Transport σ Unit) := by
  refine .bind .self fun t => ?_
  cases t with
  | endpoint ep => exact .bind (.request ep.heedless_register) fun _ => .setSelf _
  | slots chan => exact .pure _

end Transport

/-! ### Calls -/

namespace Rpc

theorem unhurried_onTransport {task : Task Transport σ α} (unhurried : Unhurried home task) :
    Unhurried home (onTransport task : Task (Rpc η) σ α) := .within unhurried

theorem unhurried_transmit (message : Message) :
    Unhurried home (transmit message : Task (Rpc η) σ Unit) :=
  unhurried_onTransport (Transport.unhurried_send message _)

/-- Values are written to a page in the same way. -/
theorem unhurried_encodePaged (t : MessageType) (tag : UInt64) (values : List Value)
    (page : Option View) {next : Except Error Message → Task (Rpc η) σ α}
    (later : ∀ message, Unhurried home (next message)) :
    Unhurried home (Task.machine >>= fun m =>
      Task.orPanic (Paged.encode t tag values page m.memory) >>= fun c =>
        Task.setMachine { m with memory := c.2 } >>= fun _ => next c.1) := by
  refine .update (fun m (c : Except Error Message × Memory) => { m with memory := c.2 })
    (fun n m late c delayed used => ⟨c, ?_, rfl, ?_⟩) fun c => later c.1
  · rw [delayed.memory]
    exact used
  · exact delayed.congr rfl (by rw [delayed.kernel, delayed.bells])

theorem unhurried_encode (t : MessageType) (tag : UInt64) (values : List Value) (side : Side) :
    Unhurried home (encode t tag values side : Task (Rpc η) σ Message) := by
  refine .bind .self fun rpc => ?_
  cases rpc.transport with
  | endpoint ep => exact unhurried_encodePaged t tag values _ fun message => .ofExcept message
  | slots chan => exact .ofExcept _

theorem unhurried_decode (t : MessageType) (kinds : List Kind) (message : Message) (side : Side) :
    Unhurried home (decode t kinds message side : Task (Rpc η) σ (List Value)) := by
  refine .bind .self fun rpc => ?_
  cases rpc.transport with
  | endpoint ep =>
      refine .reads (fun n m late delayed => ?_) fun m => .bind (.orPanic _) fun _ => .ofExcept _
      rw [delayed.memory]
  | slots chan => exact .ofExcept _

theorem unhurried_pollReply : Unhurried home (pollReply : Task (Rpc η) σ (Option Message)) := by
  refine .bind (unhurried_onTransport Transport.unhurried_canReceive) fun waits => ?_
  refine .ite ?_ (.pure _)
  refine .bind (.settle (unhurried_onTransport Transport.unhurried_receive)) fun received => ?_
  cases received with
  | ok message => exact .pure _
  | error e => exact .bind (.modifySelf _) fun _ => .fail e

theorem unhurried_transact (t : MessageType) (request : Message) :
    Unhurried home (transact t request : Task (Rpc η) σ Message) := by
  refine .bind (unhurried_transmit request) fun _ => .bind (.modifySelf _) fun _ => ?_
  refine .bind (.await unhurried_pollReply.retries) fun reply => ?_
  exact .check (.bind (.modifySelf _) fun _ => .pure _)

theorem unhurried_preparePage (t : MessageType) :
    Unhurried home (preparePage t : Task (Rpc η) σ Unit) := by
  refine .bind .self fun rpc => ?_
  refine .bind (.onMachine fun n m late answer m' delayed allocated =>
    delayed.callAllocFrame allocated) fun answer => ?_
  cases answer with
  | error e => exact .fail_bind _ _
  | ok frame =>
      refine .bind (.pure frame) fun frame => ?_
      refine .bind (.request (Machine.heedless_callMapFrame frame)) fun page => ?_
      have requested (message : Except Error Message) : Unhurried home (do
          let request ← Task.ofExcept message
          let _ ← transact setupPage request
          Task.modifySelf fun rpc => { rpc with
            entries := rpc.entries.modify t ({ · with nearPage := some page }) } :
            Task (Rpc η) σ Unit) :=
        .bind (.ofExcept message) fun request =>
          .bind (unhurried_transact setupPage request) fun _ => .modifySelf _
      exact unhurried_encodePaged setupPage _ _ none requested

theorem unhurried_call (t : MessageType) (args : List Value) :
    Unhurried home (call t args : Task (Rpc η) σ (List Value)) := by
  refine .bind .self fun rpc => .check ?_
  cases rpc.binding? t with
  | none => exact .fail _
  | some binding =>
      refine .bind (.ofExcept _) fun _ => .check ?_
      have called : Unhurried home (do
          let request ← encode t t.code args .near
          let reply ← transact t request
          decode t binding.rets reply .near : Task (Rpc η) σ (List Value)) :=
        .bind (unhurried_encode t t.code args .near) fun request =>
          .bind (unhurried_transact t request) fun reply => unhurried_decode t binding.rets reply .near
      exact .ite (.bind (unhurried_preparePage t) fun _ => called) called

theorem unhurried_installPage (args : List Value) :
    Unhurried home (installPage args : Task (Rpc η) σ Unit) := by
  unfold installPage
  split
  · split
    · refine .bind .self fun rpc => .check ?_
      refine .bind (.request (Machine.heedless_callMapFrame _)) fun page => .check ?_
      refine .bind .self fun rpc => ?_
      cases rpc.entries.get? _ with
      | none => exact .fail _
      | some entry => exact .setSelf _
    · exact .fail _
  · exact .halt _

theorem unhurried_adoptPeer (args : List Value) :
    Unhurried home (adoptPeer args : Task (Rpc η) σ Unit) := by
  unfold adoptPeer
  cases args with
  | nil => exact .halt _
  | cons arg rest =>
      simp only
      cases arg.asCap with
      | none => exact .fail _
      | some peer =>
          refine .bind .self fun rpc => ?_
          cases rpc.transport with
          | endpoint ep => exact .setSelf _
          | slots chan => exact .fail _

section Serving

variable [Handler η σ]
  (handlers : ∀ args, Unhurried home (Handler.respond args : Task η σ (List Value)))

include handlers

theorem unhurried_answer (t : MessageType) (args : List Value) :
    Unhurried home (answer t args : Task (Rpc η) σ (List Value)) := by
  refine .bind .self fun rpc => ?_
  cases rpc.handlers.get? t with
  | none => exact .fail _
  | some handler => exact .within (handlers args)

theorem unhurried_serveRequest (binding : Binding) (request : Message) (t : MessageType) :
    Unhurried home (serveRequest binding request t : Task (Rpc η) σ Dispatch) := by
  refine .bind (unhurried_decode t binding.args request .far) fun args => ?_
  have replied (rets : List Value) (outcome : Dispatch) : Unhurried home (do
      Task.ofExcept (Value.check t binding.rets rets)
      let reply ← encode t t.responseTag rets .far
      transmit reply
      return outcome : Task (Rpc η) σ Dispatch) :=
    .bind (.ofExcept _) fun _ => .bind (unhurried_encode t t.responseTag rets .far) fun reply =>
      .bind (unhurried_transmit reply) fun _ => .pure _
  refine .ite (.bind (unhurried_installPage args) fun _ => replied _ _) ?_
  refine .ite (.bind (unhurried_adoptPeer args) fun _ => replied _ _) ?_
  exact .bind (unhurried_answer handlers t args) fun rets => replied _ _

theorem unhurried_serveOne : Unhurried home (serveOne : Task (Rpc η) σ Dispatch) := by
  refine .bind (unhurried_onTransport Transport.unhurried_receive) fun received => ?_
  cases received with
  | none => exact .pure _
  | some message =>
      refine .bind .self fun rpc => .ite ?_ ?_
      · exact .ite (.bind (.setSelf _) fun _ => .pure _) (.pure _)
      · cases rpc.binding? ⟨message.tag⟩ with
        | none => exact .fail _
        | some binding => exact unhurried_serveRequest handlers binding message _

theorem unhurried_onMessage : Unhurried home (onMessage : Task (Rpc η) σ Dispatch) :=
  .bind (.settle (unhurried_serveOne handlers)) fun outcome =>
    .bind (.settle (unhurried_onTransport Transport.unhurried_rearm)) fun _ => .ofExcept outcome

theorem unhurried_dispatchPending :
    Unhurried home (dispatchPending : Task (Rpc η) σ Dispatch) :=
  .bind (unhurried_onTransport Transport.unhurried_takeEvent) fun _ =>
    .ite (unhurried_onMessage handlers) (.pure _)

end Serving

end Rpc

/-! ### Streams -/

namespace Stream

theorem unhurried_onTransport {task : Task Transport σ α} (unhurried : Unhurried home task) :
    Unhurried home (onTransport task : Task Stream σ α) := .within unhurried

theorem unhurried_transmit (words : List UInt64) (flags : SendFlags) :
    Unhurried home (onTransport (Transport.send { words } flags) : Task Stream σ Unit) :=
  unhurried_onTransport (Transport.unhurried_send _ flags)

theorem unhurried_sendTail (messages : List (List UInt64)) :
    Unhurried home (sendTail messages : Task Stream σ Unit) := by
  induction messages with
  | nil => exact .pure _
  | cons words rest ih =>
      cases rest with
      | nil => exact .bind .self fun s => unhurried_transmit words _
      | cons words' rest => exact .bind (unhurried_transmit words _) fun _ => ih

theorem unhurried_send (data : List UInt8) : Unhurried home (send data : Task Stream σ Unit) := by
  refine .bind .self fun s => .check (.check ?_)
  have sent : Unhurried home (do
      onTransport
        (Transport.send { words := headWords s.transport.width data } SendFlags.standard)
      sendTail (tailWords s.transport.width data) : Task Stream σ Unit) :=
    .bind (unhurried_transmit _ _) fun _ => unhurried_sendTail _
  split
  · exact .fail _
  · exact sent

theorem unhurried_close : Unhurried home (close : Task Stream σ Unit) := by
  refine .bind .self fun s => .ite (.pure _) (.bind (.setSelf _) fun _ => ?_)
  exact .bind (.settle (unhurried_transmit _ _)) fun _ => .pure _

theorem unhurried_pull : Unhurried home (pull : Task Stream σ (Option Fragment)) := by
  refine .bind (unhurried_onTransport Transport.unhurried_canReceive) fun waits => ?_
  refine .ite (.pure _) (.bind (unhurried_onTransport Transport.unhurried_receive) fun received => ?_)
  cases received with
  | none => exact .pure _
  | some message => exact .bind .self fun s => .bind (.setSelf _) fun _ => .pure _

end Stream

namespace Reader

theorem unhurried_pull :
    Unhurried home (onStream Stream.pull : Task Reader σ (Option Fragment)) :=
  .within Stream.unhurried_pull

theorem unhurried_fillRound (upTo : Nat) :
    Unhurried home (fillRound upTo : Task Reader σ (Option Unit)) := by
  refine .bind (.modifySelf _) fun _ => .bind .self fun r => .ite (.pure _) ?_
  refine .bind unhurried_pull fun pulled => ?_
  cases pulled with
  | none => exact .pure _
  | some fragment => exact .pure _

/-- The bound on the rounds grows by more than one with each empty turn. -/
theorem unhurried_fill (upTo : Nat) : Unhurried home (fill upTo : Task Reader σ Unit) := by
  intro now n late unseen delayed outcome last ran
  have rounds : ∀ now : Moment Reader σ, fill upTo now = Task.repeatWithin
      ((now.turns.length + 1) *
        (now.self.stream.transport.backlogLimit now.scene.machine + 2)) (fillRound upTo) now :=
    fun _ => rfl
  rw [rounds] at ran
  have lags := (unhurried_fillRound upTo).patient.repeats unseen delayed ran
  refine lags.mono delayed fun _ k m turns last delayed enough runs => ?_
  rw [rounds]
  refine runs _ ?_
  simp only [Moment.on]
  rw [Transport.backlogLimit_delayed delayed]
  generalize now.self.stream.transport.backlogLimit now.scene.machine = backlog
  calc (now.turns.length + 1) * (backlog + 2) + k
    _ ≤ (now.turns.length + 1) * (backlog + 2) + k * (backlog + 2) :=
        Nat.add_le_add_left (Nat.le_mul_of_pos_right k (Nat.succ_pos _)) _
    _ = (now.turns.length + k + 1) * (backlog + 2) := by ring
    _ ≤ (turns.length + 1) * (backlog + 2) := Nat.mul_le_mul_right _ (by omega)

theorem unhurried_receiveAvailable (length : Nat) :
    Unhurried home (receiveAvailable length : Task Reader σ Nat) :=
  .bind (unhurried_fill length) fun _ => .bind .self fun _ => .pure _

theorem unhurried_receive (length : Nat) : Unhurried home (receive length : Task Reader σ Nat) :=
  .await (Unhurried.retries (.bind (unhurried_fill length) fun _ => .bind .self fun _ =>
    .ite (.pure _) (.pure _)))

theorem unhurried_receiveAll (upTo : Nat) :
    Unhurried home (receiveAll upTo : Task Reader σ Unit) :=
  .await (Unhurried.retries (.bind (unhurried_fill upTo) fun _ => .bind .self fun _ =>
    .ite (.pure _) (.check (.pure _))))

theorem unhurried_awaitStart : Unhurried home (awaitStart : Task Reader σ UInt64) := by
  refine .await (Unhurried.retries (.bind .self fun r => .check ?_))
  refine .bind unhurried_pull fun pulled => ?_
  cases pulled with
  | none => exact .pure _
  | some fragment =>
      cases fragment with
      | start length => exact .pure _
      | continuation => exact .fail _
      | close => exact .fail _

theorem unhurried_receiveMessage (length : Nat) :
    Unhurried home (receiveMessage length : Task Reader σ Nat) :=
  .bind .self fun _ => .check (.bind unhurried_awaitStart fun total =>
    .check (.bind (unhurried_receiveAll total.toNat) fun _ => .pure _))

end Reader

end Conduit

/-
# Operations by two ways to take letters

A relation between tasks is `Task.Parametric` if it respects the ways in which tasks are put
together; what is asked of the machine is the same on both sides and hands out no receive slot.
Such a relation holds between the operations by two ways to take letters if it holds between
receiving by them (`Task.Parametric.perform`, `Task.Parametric.run`). So what is to be shown of all
operations is shown of receiving alone, the one place where a receive slot is provided.
-/

import Conduit.Proofs.Replenish.Neutral
import Conduit.Proofs.Replenish.Taking

namespace Conduit

variable {η σ τ : Type}

/-- What a party may be asked to do, other than to use its transport past it. -/
inductive Rpc.Command (η : Type) where
  /-- A call. -/
  | call (t : MessageType) (args : List Value)
  /-- Calls on a well-known service. -/
  | client (made : ClientCall)
  /-- Serving one message. -/
  | onMessage
  /-- Serving one message if there is a notification of one. -/
  | dispatchPending
  /-- Registering a binding. -/
  | register (b : Binding)
  /-- Installing the bindings of the well-known calls. -/
  | installStandard
  /-- Providing a handler. -/
  | handle (t : MessageType) (handler : η)
  /-- Choosing the size of pages to come. -/
  | setPageSize (bytes : Nat)

/-- The operation, among others of any kind. -/
def Rpc.Command.operation : Command η → Operation η σ
  | call t args => .call t args
  | client made => .client made
  | onMessage => .onMessage
  | dispatchPending => .dispatchPending
  | register b => .register b
  | installStandard => .installStandard
  | handle t handler => .handle t handler
  | setPageSize bytes => .setPageSize bytes

/-- A relation between tasks that respects the ways to put tasks together. The two tasks may run
among others of different kinds. -/
structure Task.Parametric (rel : {δ α : Type} → Task δ σ α → Task δ τ α → Prop) : Prop where
  protected pure {δ α : Type} (a : α) : rel (pure a : Task δ σ α) (pure a)
  fail {δ α : Type} (e : Error) : rel (Task.fail e : Task δ σ α) (Task.fail e)
  halt {δ α : Type} (h : Halt) : rel (Task.halt h : Task δ σ α) (Task.halt h)
  protected bind {δ α β : Type} {task : Task δ σ α} {task' : Task δ τ α} {next : α → Task δ σ β}
    {next' : α → Task δ τ β} (first : rel task task') (later : ∀ a, rel (next a) (next' a)) :
    rel (task >>= next) (task' >>= next')
  settle {δ α : Type} {task : Task δ σ α} {task' : Task δ τ α} (related : rel task task') :
    rel (Task.settle task) (Task.settle task')
  within {δ ζ α : Type} {part : δ → ζ} {setPart : ζ → δ → δ} {task : Task ζ σ α}
    {task' : Task ζ τ α} (related : rel task task') :
    rel (Task.within part setPart task) (Task.within part setPart task')
  self {δ : Type} : rel (Task.self : Task δ σ δ) Task.self
  modifySelf {δ : Type} (change : δ → δ) :
    rel (Task.modifySelf change : Task δ σ Unit) (Task.modifySelf change)
  machine {δ : Type} : rel (Task.machine : Task δ σ Machine) Task.machine
  /-- A use of the machine that hands out no receive slot and may end everything. -/
  update {δ α β : Type} {use : Machine → Except Panic α} {after : Machine → α → Machine}
    {next : α → Task δ σ β} {next' : α → Task δ τ β}
    (neutral : ∀ m a, m.Quiet → use m = .ok a → m.Neutral (after m a))
    (later : ∀ a, rel (next a) (next' a)) :
    rel (Task.machine >>= fun m => Task.orPanic (use m) >>= fun a =>
        Task.setMachine (after m a) >>= fun _ => next a)
      (Task.machine >>= fun m => Task.orPanic (use m) >>= fun a =>
        Task.setMachine (after m a) >>= fun _ => next' a)
  pause {δ : Type} : rel (Task.pause : Task δ σ Unit) Task.pause
  /-- A repetition within a bound that may depend on what there is at first. -/
  repeats {δ α : Type} {round : Task δ σ (Option α)} {round' : Task δ τ (Option α)}
    (bound : δ → Machine → Nat → Nat) (related : rel round round') :
    rel (get >>= fun now =>
        Task.repeatWithin (bound now.self now.scene.machine now.turns.length) round)
      (get >>= fun now =>
        Task.repeatWithin (bound now.self now.scene.machine now.turns.length) round')

namespace Task.Parametric

variable {rel : {δ α : Type} → Task δ σ α → Task δ τ α → Prop} (rules : Task.Parametric rel)

include rules

/-! ### Derived rules -/

section Derived

variable {δ α β : Type}

/-- Nothing is done after a failure. -/
theorem fail_bind (e : Error) (next : β → Task δ σ α) (next' : β → Task δ τ α) :
    rel (Task.fail e >>= next) (Task.fail e >>= next') := rules.fail e

theorem setSelf (d : δ) : rel (Task.setSelf d : Task δ σ Unit) (Task.setSelf d) :=
  rules.modifySelf fun _ => d

theorem ofExcept (result : Except Error α) :
    rel (Task.ofExcept result : Task δ σ α) (Task.ofExcept result) := by
  cases result with
  | ok a => exact rules.pure a
  | error e => exact rules.fail e

theorem orPanic (result : Except Panic α) :
    rel (Task.orPanic result : Task δ σ α) (Task.orPanic result) := by
  cases result with
  | ok a => exact rules.pure a
  | error cause => exact rules.halt _

omit rules in
theorem either {c : Prop} [Decidable c] {task other : Task δ σ α} {task' other' : Task δ τ α}
    (first : rel task task') (second : rel other other') :
    rel (if c then task else other) (if c then task' else other') := by
  by_cases here : c
  · rw [if_pos here, if_pos here]
    exact first
  · rw [if_neg here, if_neg here]
    exact second

/-- A check that fails the task or lets it go on. -/
theorem check {c : Prop} [Decidable c] {e : Error} {next : Unit → Task δ σ α}
    {next' : Unit → Task δ τ α} (later : rel (next ()) (next' ())) :
    rel (if c then Task.fail e >>= next else next ())
      (if c then Task.fail e >>= next' else next' ()) :=
  either (rules.fail_bind e next next') later

theorem asking {use : Machine → Except ChannelError α × Machine}
    (neutral : ∀ m : Machine, m.Quiet → m.Neutral (use m).2) :
    rel (Task.asking use : Task δ σ (Except ChannelError α)) (Task.asking use) := by
  have sure (m : Machine) (used : Except ChannelError α × Machine) (quiet : m.Quiet)
      (ran : (.ok (use m) : Except Panic _) = .ok used) : m.Neutral used.2 := by
    cases ran
    exact neutral m quiet
  exact rules.update sure fun used => rules.pure used.1

theorem request {use : Machine → Except ChannelError α × Machine}
    (neutral : ∀ m : Machine, m.Quiet → m.Neutral (use m).2) :
    rel (Task.request use : Task δ σ α) (Task.request use) := by
  refine rules.bind (rules.asking neutral) fun answer => ?_
  cases answer with
  | ok a => exact rules.pure a
  | error e => exact rules.fail _

theorem onMachine {use : Machine → Except Panic (α × Machine)}
    (neutral : ∀ m a m', m.Quiet → use m = .ok (a, m') → m.Neutral m') :
    rel (Task.onMachine use : Task δ σ α) (Task.onMachine use) :=
  rules.update (fun m used quiet => neutral m used.1 used.2 quiet) fun used => rules.pure used.1

theorem await {poll : Task δ σ (Option α)} {poll' : Task δ τ (Option α)}
    (polls : rel poll poll') : rel (Task.await poll) (Task.await poll') := by
  refine rules.repeats (fun _ _ turns => turns + 1) (rules.bind polls fun found => ?_)
  cases found with
  | none => exact rules.bind rules.pause fun _ => rules.pure none
  | some a => exact rules.pure (some a)

theorem awaitAnswer {attempt : Task δ σ (Except ChannelError α)}
    {attempt' : Task δ τ (Except ChannelError α)} (attempts : rel attempt attempt') :
    rel (Task.awaitAnswer attempt) (Task.awaitAnswer attempt') := by
  refine rules.await (rules.bind attempts fun answer => ?_)
  cases answer with
  | ok a => exact rules.pure _
  | error e =>
      cases e with
      | transient => exact rules.pure _
      | _ => exact rules.pure _

end Derived

/-! ### Transports -/

theorem canReceive :
    rel (Transport.canReceive : Task Transport σ Bool) Transport.canReceive := by
  refine rules.bind rules.self fun t => ?_
  cases t with
  | endpoint ep => exact rules.bind rules.machine fun m => rules.pure _
  | slots chan => exact rules.bind rules.machine fun m => rules.orPanic _

theorem offer (message : Message) (flags : SendFlags) :
    rel (Transport.offer message flags : Task Transport σ (Option Unit))
      (Transport.offer message flags) := by
  refine rules.bind rules.self fun t => ?_
  cases t with
  | endpoint ep =>
      refine rules.bind (rules.asking fun m quiet => ep.neutral_send quiet flags _) fun answer => ?_
      cases answer with
      | ok u => exact rules.pure _
      | error e =>
          cases e with
          | transient => exact rules.pure _
          | _ => exact rules.fail _
  | slots chan =>
      refine rules.update (fun m used _ ran => SlotChannel.neutral_send ran) fun used => ?_
      obtain ⟨sent, chan', m⟩ := used
      refine rules.bind (rules.setSelf _) fun _ => ?_
      cases sent with
      | error e => exact rules.pure _
      | ok room =>
          cases room with
          | false => exact rules.pure _
          | true => exact rules.pure _

theorem send (message : Message) (flags : SendFlags) :
    rel (Transport.send message flags : Task Transport σ Unit) (Transport.send message flags) := by
  refine rules.bind rules.self fun t => ?_
  cases t with
  | endpoint ep => exact rules.await (rules.offer message flags)
  | slots chan => exact rules.check (rules.check (rules.await (rules.offer message flags)))

theorem takeEvent : rel (Transport.takeEvent : Task Transport σ Bool) Transport.takeEvent := by
  refine rules.bind rules.self fun t => ?_
  cases t with
  | endpoint ep =>
      exact rules.bind rules.machine fun m => rules.bind (rules.setSelf _) fun _ => rules.pure _
  | slots chan =>
      exact rules.onMachine fun m rung m' _ ran => SlotChannel.neutral_takeNotification ran

theorem rearm : rel (Transport.rearm : Task Transport σ Unit) Transport.rearm := by
  refine rules.bind rules.self fun t => ?_
  cases t with
  | endpoint ep =>
      exact rules.bind (rules.request fun m quiet => ep.neutral_register quiet) fun _ =>
        rules.setSelf _
  | slots chan => exact rules.pure _

/-! ### Calls -/

theorem onTransport {α : Type} {task : Task Transport σ α} {task' : Task Transport τ α}
    (related : rel task task') :
    rel (Rpc.onTransport task : Task (Rpc η) σ α) (Rpc.onTransport task') := rules.within related

theorem encode (t : MessageType) (tag : UInt64) (values : List Value) (side : Side) :
    rel (Rpc.encode t tag values side : Task (Rpc η) σ Message)
      (Rpc.encode t tag values side) := by
  refine rules.bind rules.self fun rpc => ?_
  cases rpc.transport with
  | endpoint ep =>
      exact rules.update (fun m used _ _ => Machine.neutral_aside used.2 m.bells) fun used =>
        rules.ofExcept used.1
  | slots chan => exact rules.ofExcept _

theorem decode (t : MessageType) (kinds : List Kind) (message : Message) (side : Side) :
    rel (Rpc.decode t kinds message side : Task (Rpc η) σ (List Value))
      (Rpc.decode t kinds message side) := by
  refine rules.bind rules.self fun rpc => ?_
  cases rpc.transport with
  | endpoint ep =>
      exact rules.bind rules.machine fun m => rules.bind (rules.orPanic _) fun _ =>
        rules.ofExcept _
  | slots chan => exact rules.ofExcept _

theorem transmit (message : Message) :
    rel (Rpc.transmit message : Task (Rpc η) σ Unit) (Rpc.transmit message) :=
  rules.onTransport (rules.send message _)

theorem installPage (args : List Value) :
    rel (Rpc.installPage args : Task (Rpc η) σ Unit) (Rpc.installPage args) := by
  unfold Rpc.installPage
  split
  · split
    · refine rules.bind rules.self fun rpc => rules.check ?_
      refine rules.bind (rules.request fun m quiet => m.neutral_callMapFrame quiet _) fun page =>
        rules.check ?_
      refine rules.bind rules.self fun rpc => ?_
      cases rpc.entries.get? _ with
      | none => exact rules.fail _
      | some entry => exact rules.setSelf _
    · exact rules.fail _
  · exact rules.halt _

theorem adoptPeer (args : List Value) :
    rel (Rpc.adoptPeer args : Task (Rpc η) σ Unit) (Rpc.adoptPeer args) := by
  unfold Rpc.adoptPeer
  cases args with
  | nil => exact rules.halt _
  | cons arg rest =>
      simp only
      cases arg.asCap with
      | none => exact rules.fail _
      | some peer =>
          refine rules.bind rules.self fun rpc => ?_
          cases rpc.transport with
          | endpoint ep => exact rules.setSelf _
          | slots chan => exact rules.fail _

section Lines

variable {δ : Type} {ask : Task δ σ (List Value)} {ask' : Task δ τ (List Value)}
  (asks : rel ask ask')

include asks

theorem wordFrom : rel (Rpc.wordFrom ask) (Rpc.wordFrom ask') :=
  rules.bind asks fun _ => rules.ofExcept _

theorem lineFrom (limit : Nat) : rel (Rpc.lineFrom ask limit) (Rpc.lineFrom ask' limit) := by
  have reads : rel (Rpc.lineBytesFrom ask limit) (Rpc.lineBytesFrom ask' limit) := by
    induction limit with
    | zero => exact rules.pure []
    | succ limit ih =>
        refine rules.bind (rules.wordFrom asks) fun word => ?_
        exact either (rules.pure []) (rules.bind ih fun _ => rules.pure _)
  have line := rules.bind reads fun bytes => rules.pure (Utf8.decodeLossy bytes)
  exact either (rules.bind (rules.halt _) fun _ => line) line

end Lines

section Answering

variable [Handler η σ] [Handler η τ] (answers : ∀ args,
  rel (Handler.respond args : Task η σ (List Value)) (Handler.respond args : Task η τ (List Value)))

include answers

theorem answer (t : MessageType) (args : List Value) :
    rel (Rpc.answer t args : Task (Rpc η) σ (List Value)) (Rpc.answer t args) := by
  refine rules.bind rules.self fun rpc => ?_
  cases rpc.handlers.get? t with
  | none => exact rules.fail _
  | some handler => exact rules.within (answers args)

theorem serveRequest (binding : Binding) (request : Message) (t : MessageType) :
    rel (Rpc.serveRequest binding request t : Task (Rpc η) σ Dispatch)
      (Rpc.serveRequest binding request t) := by
  refine rules.bind (rules.decode t binding.args request .far) fun args => ?_
  have replied (rets : List Value) (outcome : Dispatch) :=
    rules.bind (rules.ofExcept (Value.check t binding.rets rets)) fun _ =>
      rules.bind (rules.encode (η := η) t t.responseTag rets .far) fun reply =>
        rules.bind (rules.transmit reply) fun _ => rules.pure outcome
  refine either (rules.bind (rules.installPage args) fun _ => replied _ _) ?_
  refine either (rules.bind (rules.adoptPeer args) fun _ => replied _ _) ?_
  exact rules.bind (rules.answer answers t args) fun rets => replied _ _

end Answering

/-! ### Sending on streams -/

theorem transmitWords (words : List UInt64) (flags : SendFlags) :
    rel (Stream.onTransport (Transport.send { words } flags) : Task Stream σ Unit)
      (Stream.onTransport (Transport.send { words } flags)) :=
  rules.within (rules.send _ flags)

theorem sendTail (messages : List (List UInt64)) :
    rel (Stream.sendTail messages : Task Stream σ Unit) (Stream.sendTail messages) := by
  induction messages with
  | nil => exact rules.pure _
  | cons words rest ih =>
      cases rest with
      | nil => exact rules.bind rules.self fun s => rules.transmitWords words _
      | cons words' rest => exact rules.bind (rules.transmitWords words _) fun _ => ih

theorem sendBytes (data : List UInt8) :
    rel (Stream.send data : Task Stream σ Unit) (Stream.send data) := by
  refine rules.bind rules.self fun s => rules.check (rules.check ?_)
  have sent := rules.bind (rules.transmitWords
    (Stream.headWords s.transport.width data) SendFlags.standard) fun _ =>
      rules.sendTail (Stream.tailWords s.transport.width data)
  split
  · exact rules.fail _
  · exact sent

theorem close : rel (Stream.close : Task Stream σ Unit) Stream.close := by
  refine rules.bind rules.self fun s => either (rules.pure _) ?_
  refine rules.bind (rules.setSelf _) fun _ => ?_
  exact rules.bind (rules.settle (rules.transmitWords _ _)) fun _ => rules.pure _

/-! ### Taking letters -/

section Taking

variable {take : Endpoint → Task Transport σ (Except ChannelError Letter)}
  {take' : Endpoint → Task Transport τ (Except ChannelError Letter)}
  (receives : rel (Transport.receiveBy take) (Transport.receiveBy take'))

include receives

theorem pollReply : rel (Rpc.pollReplyBy take : Task (Rpc η) σ (Option Message))
    (Rpc.pollReplyBy take') := by
  refine rules.bind (rules.onTransport rules.canReceive) fun waits => either ?_ (rules.pure _)
  refine rules.bind (rules.settle (rules.onTransport receives)) fun received => ?_
  cases received with
  | ok message => exact rules.pure _
  | error e => exact rules.bind (rules.modifySelf _) fun _ => rules.fail e

theorem transact (t : MessageType) (request : Message) :
    rel (Rpc.transactBy take t request : Task (Rpc η) σ Message)
      (Rpc.transactBy take' t request) := by
  refine rules.bind (rules.transmit request) fun _ => rules.bind (rules.modifySelf _) fun _ => ?_
  refine rules.bind (rules.await (rules.pollReply receives)) fun reply => ?_
  exact rules.check (rules.bind (rules.modifySelf _) fun _ => rules.pure _)

theorem preparePage (t : MessageType) :
    rel (Rpc.preparePageBy take t : Task (Rpc η) σ Unit) (Rpc.preparePageBy take' t) := by
  refine rules.bind rules.self fun rpc => ?_
  refine rules.bind (rules.onMachine fun m answer m' quiet ran =>
    Machine.neutral_callAllocFrame quiet ran) fun answer => ?_
  cases answer with
  | error e => exact rules.fail_bind _ _ _
  | ok frame =>
      refine rules.bind (rules.pure frame) fun frame => ?_
      refine rules.bind (rules.request fun m quiet => m.neutral_callMapFrame quiet frame)
        fun page => ?_
      refine rules.update (fun m used _ _ => Machine.neutral_aside used.2 m.bells) fun used => ?_
      exact rules.bind (rules.ofExcept used.1) fun request =>
        rules.bind (rules.transact receives Rpc.setupPage request) fun _ => rules.modifySelf _

theorem call (t : MessageType) (args : List Value) :
    rel (Rpc.callBy take t args : Task (Rpc η) σ (List Value)) (Rpc.callBy take' t args) := by
  refine rules.bind rules.self fun rpc => rules.check ?_
  cases rpc.binding? t with
  | none => exact rules.fail _
  | some binding =>
      refine rules.bind (rules.ofExcept _) fun _ => rules.check ?_
      have called := rules.bind (rules.encode (η := η) t t.code args .near) fun request =>
        rules.bind (rules.transact receives t request) fun reply =>
          rules.decode t binding.rets reply .near
      exact either (rules.bind (rules.preparePage receives t) fun _ => called) called

theorem make (made : Rpc.ClientCall) :
    rel (made.makeBy take : Task (Rpc η) σ Unit) (made.makeBy take') := by
  have calls (t : MessageType) (args : List Value) :
      rel (Rpc.callBy take t args : Task (Rpc η) σ (List Value)) (Rpc.callBy take' t args) :=
    rules.call receives t args
  have notifies (t : MessageType) (args : List Value) :=
    rules.bind (calls t args) fun _ => rules.pure ()
  cases made with
  | introduce =>
      refine rules.bind rules.self fun rpc => ?_
      cases rpc.transport with
      | slots chan => exact rules.fail _
      | endpoint ep => exact notifies _ _
  | sendNumber number => exact notifies _ _
  | sendString text => exact notifies _ _
  | getRam bytes alignment =>
      exact rules.bind (calls _ _) fun _ => rules.bind (rules.ofExcept _) fun _ =>
        rules.bind (rules.ofExcept _) fun _ => rules.pure ()
  | serialPut c => exact notifies _ _
  | serialGet => exact rules.bind (rules.wordFrom (calls _ _)) fun _ => rules.pure ()
  | readLine limit => exact rules.bind (rules.lineFrom (calls _ _) limit) fun _ => rules.pure ()
  | spawnProcess command core =>
      exact rules.bind (calls _ _) fun _ => rules.bind (rules.ofExcept _) fun _ => rules.pure ()
  | getProcessName pid =>
      exact rules.bind (calls _ _) fun _ => rules.bind (rules.ofExcept _) fun _ => rules.pure ()
  | getProcesses =>
      refine rules.bind (calls _ _) fun rets => rules.bind (rules.ofExcept _) fun count =>
        rules.bind (rules.ofExcept _) fun text => ?_
      cases ProcessList.read text count with
      | some numbers => exact rules.pure ()
      | none => exact rules.fail _
  | ping => exact notifies _ _

section Serving

variable [Handler η σ] [Handler η τ] (answers : ∀ args,
  rel (Handler.respond args : Task η σ (List Value)) (Handler.respond args : Task η τ (List Value)))

include answers

theorem serveOne : rel (Rpc.serveOneBy take : Task (Rpc η) σ Dispatch) (Rpc.serveOneBy take') := by
  refine rules.bind (rules.onTransport receives) fun received => ?_
  cases received with
  | none => exact rules.pure _
  | some message =>
      refine rules.bind rules.self fun rpc => either ?_ ?_
      · exact either (rules.bind (rules.setSelf _) fun _ => rules.pure _) (rules.pure _)
      · cases rpc.binding? ⟨message.tag⟩ with
        | none => exact rules.fail _
        | some binding => exact rules.serveRequest answers binding message _

theorem onMessage :
    rel (Rpc.onMessageBy take : Task (Rpc η) σ Dispatch) (Rpc.onMessageBy take') :=
  rules.bind (rules.settle (rules.serveOne receives answers)) fun outcome =>
    rules.bind (rules.settle (rules.onTransport rules.rearm)) fun _ => rules.ofExcept outcome

theorem dispatchPending :
    rel (Rpc.dispatchPendingBy take : Task (Rpc η) σ Dispatch) (Rpc.dispatchPendingBy take') :=
  rules.bind (rules.onTransport rules.takeEvent) fun _ =>
    either (rules.onMessage receives answers) (rules.pure _)

variable (take take') in
/-- Whatever a party is asked to do. -/
theorem perform (command : Rpc.Command η) :
    rel (command.operation.performBy take : Task (Rpc η) σ Unit)
      (command.operation.performBy take') := by
  cases command with
  | call t args => exact rules.bind (rules.call receives t args) fun _ => rules.pure ()
  | client made => exact rules.make receives made
  | onMessage => exact rules.bind (rules.onMessage receives answers) fun _ => rules.pure ()
  | dispatchPending =>
      exact rules.bind (rules.dispatchPending receives answers) fun _ => rules.pure ()
  | register b =>
      refine rules.bind rules.self fun rpc => ?_
      cases rpc.register b with
      | ok rpc => exact rules.setSelf _
      | error e => exact rules.fail _
  | installStandard =>
      exact rules.bind rules.self fun rpc => rules.bind (rules.setSelf _) fun _ =>
        rules.ofExcept _
  | handle t handler => exact rules.modifySelf fun rpc : Rpc η => rpc.handle t handler
  | setPageSize bytes => exact rules.modifySelf fun rpc : Rpc η => { rpc with pageSize := bytes }

end Serving

theorem pull : rel (Stream.pullBy take : Task Stream σ (Option Fragment))
    (Stream.pullBy take') := by
  refine rules.bind (rules.within rules.canReceive) fun waits => either (rules.pure _) ?_
  refine rules.bind (rules.within receives) fun received => ?_
  cases received with
  | none => exact rules.pure _
  | some message =>
      exact rules.bind rules.self fun s => rules.bind (rules.setSelf _) fun _ => rules.pure _

theorem fillRound (upTo : Nat) :
    rel (Reader.fillRoundBy take upTo : Task Reader σ (Option Unit))
      (Reader.fillRoundBy take' upTo) := by
  refine rules.bind (rules.modifySelf _) fun _ => rules.bind rules.self fun r =>
    either (rules.pure _) ?_
  refine rules.bind (rules.within (rules.pull receives)) fun pulled => ?_
  cases pulled with
  | none => exact rules.pure _
  | some fragment => exact rules.pure _

theorem fill (upTo : Nat) :
    rel (Reader.fillBy take upTo : Task Reader σ Unit) (Reader.fillBy take' upTo) :=
  rules.repeats (fun (r : Reader) m turns =>
    (turns + 1) * (r.stream.transport.backlogLimit m + 2)) (rules.fillRound receives upTo)

theorem receiveAvailable (length : Nat) :
    rel (Reader.receiveAvailableBy take length : Task Reader σ Nat)
      (Reader.receiveAvailableBy take' length) :=
  rules.bind (rules.fill receives length) fun _ => rules.bind rules.self fun _ => rules.pure _

theorem receive (length : Nat) :
    rel (Reader.receiveBy take length : Task Reader σ Nat) (Reader.receiveBy take' length) :=
  rules.await (rules.bind (rules.fill receives length) fun _ => rules.bind rules.self fun _ =>
    either (rules.pure _) (rules.pure _))

theorem receiveAll (upTo : Nat) :
    rel (Reader.receiveAllBy take upTo : Task Reader σ Unit) (Reader.receiveAllBy take' upTo) :=
  rules.await (rules.bind (rules.fill receives upTo) fun _ => rules.bind rules.self fun _ =>
    either (rules.pure _) (rules.check (rules.pure _)))

theorem awaitStart :
    rel (Reader.awaitStartBy take : Task Reader σ UInt64) (Reader.awaitStartBy take') := by
  refine rules.await (rules.bind rules.self fun r => rules.check ?_)
  refine rules.bind (rules.within (rules.pull receives)) fun pulled => ?_
  cases pulled with
  | none => exact rules.pure _
  | some fragment =>
      cases fragment with
      | start length => exact rules.pure _
      | continuation => exact rules.fail _
      | close => exact rules.fail _

theorem receiveMessage (length : Nat) :
    rel (Reader.receiveMessageBy take length : Task Reader σ Nat)
      (Reader.receiveMessageBy take' length) :=
  rules.bind rules.self fun _ => rules.check (rules.bind (rules.awaitStart receives) fun total =>
    rules.check (rules.bind (rules.receiveAll receives total.toNat) fun _ => rules.pure _))

variable (take take') in
/-- Whatever a stream is asked to do. -/
theorem run (op : Stream.Op) :
    rel (op.runBy take : Task Reader σ Nat) (op.runBy take') := by
  cases op with
  | send data => exact rules.bind (rules.within (rules.sendBytes data)) fun _ => rules.pure 0
  | close => exact rules.bind (rules.within rules.close) fun _ => rules.pure 0
  | receiveAvailable length => exact rules.receiveAvailable receives length
  | receive length => exact rules.receive receives length
  | receiveAll length =>
      exact rules.bind (rules.receiveAll receives length) fun _ => rules.pure length
  | receiveMessage length => exact rules.receiveMessage receives length

end Taking

end Task.Parametric

end Conduit

/-
# What a party's transport does is what the party does

`onTransport` turns a task of a transport into one of its party. It goes through every way
a task is put together, waiting included, so what a transport is asked for can be followed
as a task of the party itself: sending, receiving and looking for a message lead to the
strides that one expects (`leads_transmit`, `leads_receive`, `leads_canReceive`).
-/

import Conduit.Proofs.Call.Conduct.Leads

namespace Conduit.Rpc

variable {η σ α β : Type}

/-! ### Tasks of a transport as tasks of its party -/

theorem onTransport_bind (task : Task Transport σ β) (next : β → Task Transport σ α) :
    (onTransport (task >>= next) : Task (Rpc η) σ α) =
      onTransport task >>= fun b => onTransport (next b) := by
  funext now
  simp only [onTransport, Task.within, bind, EStateM.bind]
  cases task ⟨now.self.transport, now.scene, now.turns⟩ with
  | ok b inner => rfl
  | error stop inner => rfl

theorem onTransport_pause :
    (onTransport Task.pause : Task (Rpc η) σ Unit) = Task.pause := by
  funext ⟨rpc, scene, turns⟩
  unfold onTransport Task.within Task.pause
  cases turns with
  | nil => rfl
  | cons turn rest =>
      simp only
      cases turn scene with
      | ok u scene => rfl
      | error h scene => rfl

theorem onTransport_repeatWithin (round : Task Transport σ (Option α)) (bound : Nat) :
    (onTransport (Task.repeatWithin bound round) : Task (Rpc η) σ α) =
      Task.repeatWithin bound (onTransport round) := by
  induction bound with
  | zero => rfl
  | succ bound ih =>
      unfold Task.repeatWithin
      rw [onTransport_bind]
      congr 1
      funext found
      cases found with
      | none => exact ih
      | some a => rfl

theorem onTransport_pollOrPause (poll : Task Transport σ (Option α)) :
    (onTransport (Task.pollOrPause poll) : Task (Rpc η) σ (Option α)) =
      Task.pollOrPause (onTransport poll) := by
  unfold Task.pollOrPause
  rw [onTransport_bind]
  congr 1
  funext found
  cases found with
  | none =>
      simp only
      rw [onTransport_bind, onTransport_pause]
      rfl
  | some a => rfl

theorem onTransport_await (poll : Task Transport σ (Option α)) :
    (onTransport (Task.await poll) : Task (Rpc η) σ α) = Task.await (onTransport poll) := by
  funext now
  have unfolded : (onTransport (Task.await poll) : Task (Rpc η) σ α) now =
      onTransport (Task.repeatWithin (now.turns.length + 1) (Task.pollOrPause poll)) now := rfl
  rw [unfolded, onTransport_repeatWithin, onTransport_pollOrPause, Task.await_eq]

theorem onTransport_awaitAnswer (attempt : Task Transport σ (Except ChannelError α)) :
    (onTransport (Task.awaitAnswer attempt) : Task (Rpc η) σ (Except ChannelError α)) =
      Task.awaitAnswer (onTransport attempt) := by
  unfold Task.awaitAnswer
  rw [onTransport_await, onTransport_bind]
  congr 2
  funext answer
  cases answer with
  | ok a => rfl
  | error e => cases e <;> rfl

theorem onTransport_self_bind (next : Transport → Task Transport σ α) (now : Moment (Rpc η) σ) :
    onTransport (Task.self >>= next) now = onTransport (next now.self.transport) now := rfl

theorem onTransport_machine_bind (next : Machine → Task Transport σ α)
    (now : Moment (Rpc η) σ) :
    onTransport (Task.machine >>= next) now = onTransport (next now.scene.machine) now := rfl

theorem onTransport_setSelf_bind (transport : Transport) (next : Unit → Task Transport σ α)
    (now : Moment (Rpc η) σ) : onTransport (Task.setSelf transport >>= next) now =
      onTransport (next ()) { now with self := { now.self with transport } } := rfl

theorem onTransport_setMachine_bind (m : Machine) (next : Unit → Task Transport σ α)
    (now : Moment (Rpc η) σ) : onTransport (Task.setMachine m >>= next) now =
      onTransport (next ()) { now with scene := { now.scene with machine := m } } := rfl

theorem onTransport_asking (use : Machine → Except ChannelError α × Machine) :
    (onTransport (Task.asking use) : Task (Rpc η) σ (Except ChannelError α)) = Task.asking use :=
  rfl

theorem onTransport_onMachine (use : Machine → Except Panic (α × Machine)) :
    (onTransport (Task.onMachine use) : Task (Rpc η) σ α) = Task.onMachine use := by
  funext ⟨rpc, scene, turns⟩
  have unfolded (now : Moment Transport σ) : Task.onMachine use now =
      (Task.orPanic (use now.scene.machine) >>= fun result => do
        Task.setMachine result.2
        return result.1) now := rfl
  unfold onTransport Task.within
  rw [unfolded]
  cases used : use scene.machine with
  | error cause => rw [Task.onMachine_panic used]; rfl
  | ok result => rw [Task.onMachine_ok used]; rfl

/-! ### Strides of a transport -/

variable [Handler η σ] {terms : Terms σ} {phase phase' : Phase} {now : Moment (Rpc η) σ}
  {message : Message}

/-- The party but for its transport. -/
def SameBut (rpc rpc' : Rpc η) : Prop := rpc' = { rpc with transport := rpc'.transport }

omit [Handler η σ] in
theorem SameBut.of_eq {rpc rpc' : Rpc η} (same : rpc' = rpc) : SameBut rpc rpc' := by
  subst same
  rfl

omit [Handler η σ] in
/-- Using the transport changes nothing else of the party. -/
theorem sameBut_onTransport {task : Task Transport σ α} {now now' : Moment (Rpc η) σ} {a : α}
    (ran : onTransport task now = .ok a now') : SameBut now.self now'.self := by
  unfold onTransport Task.within at ran
  cases inner : task ⟨now.self.transport, now.scene, now.turns⟩ with
  | ok a' inner' =>
      rw [inner] at ran
      cases ran
      rfl
  | error stop inner' =>
      rw [inner] at ran
      cases ran

omit [Handler η σ] in
theorem carried_eq {rpc : Rpc η} {transport : Transport} (across : rpc.transport = transport) :
    ({ rpc with transport } : Rpc η) = rpc := by
  rw [← across]

theorem leads_canReceive (phase : Phase) (now : Moment (Rpc η) σ) :
    Leads terms (onTransport Transport.canReceive) phase now
      (fun _ events last now' => events = [] ∧ last = phase ∧ now' = now)
      fun _ _ _ _ => False := by
  unfold Leads Transport.canReceive
  rw [onTransport_self_bind]
  cases across : now.self.transport with
  | endpoint ep => exact ⟨[], phase, .nil _, rfl, rfl, rfl⟩
  | slots chan =>
      rw [onTransport_machine_bind]
      cases looked : chan.canReceive now.scene.machine with
      | error cause => exact ⟨[], _, .nil _, .pane across (.inl looked)⟩
      | ok waiting => exact ⟨[], phase, .nil _, rfl, rfl, rfl⟩

/-- One try to send: the message is sent, or nothing is. -/
theorem leads_offer (reason : Reason terms.calls now.self phase message phase')
    (capless : now.self.transport.isEndpoint = false → message.cap = none) (flags : SendFlags) :
    Leads terms (onTransport (Transport.offer message flags)) phase now
      (fun sent events last now' =>
        match sent with
        | none => events = [] ∧ last = phase ∧ now'.self = now.self
        | some _ => events = [.sent message] ∧ last = phase' ∧ SameBut now.self now'.self)
      fun _ events last now' => events = [] ∧ last = phase ∧ now'.self = now.self := by
  unfold Leads Transport.offer
  rw [onTransport_self_bind]
  cases across : now.self.transport with
  | endpoint ep =>
      simp only
      rw [onTransport_bind, onTransport_asking, Task.asking_bind]
      rcases answered : ep.send flags ⟨Letter.fit message.words, message.cap⟩ now.scene.machine with
        ⟨cause | u, m⟩
      · have unsent : Deal terms.calls terms.notices ⟨phase, now.self, now.scene.machine⟩ []
            ⟨phase, now.self, m⟩ := .unsent across answered
        cases cause with
        | transient => exact leads_deal unsent (leads_pure ⟨rfl, rfl, rfl⟩)
        | _ => exact leads_deal unsent (leads_fail ⟨rfl, rfl, rfl⟩)
      · have sends : Deal terms.calls terms.notices ⟨phase, now.self, now.scene.machine⟩
            [.sent message] ⟨phase', { now.self with transport := .endpoint ep }, m⟩ :=
          .send (by rw [across]; exact .endpoint answered) reason
        rw [carried_eq across] at sends
        exact leads_deal sends (leads_pure ⟨rfl, rfl, rfl⟩)
  | slots chan =>
      simp only
      rw [onTransport_machine_bind]
      cases ran : chan.send message.words now.scene.machine with
      | error cause => exact ⟨[], _, .nil _, .pane across (.inr (.inr (.inr ⟨_, ran⟩)))⟩
      | ok result =>
          obtain ⟨answer, chan', m⟩ := result
          simp only [Task.orPanic_ok, pure_bind]
          rw [onTransport_setMachine_bind, onTransport_setSelf_bind]
          rcases answer with e | _ | _
          · obtain ⟨rfl, rfl⟩ := SlotChannel.eq_of_send_unfilled ran (fun h => by cases h)
            rw [carried_eq across]
            exact ⟨[], phase, .nil _, rfl, rfl, rfl⟩
          · obtain ⟨rfl, rfl⟩ := SlotChannel.eq_of_send_unfilled ran (fun h => by cases h)
            rw [carried_eq across]
            exact ⟨[], phase, .nil _, rfl, rfl, rfl⟩
          · have sends : Deal terms.calls terms.notices ⟨phase, now.self, now.scene.machine⟩
                [.sent message] ⟨phase', { now.self with transport := .slots chan' }, m⟩ :=
              .send (by rw [across]; exact .slots (capless (by rw [across]; rfl)) ran) reason
            exact leads_deal sends (leads_pure ⟨rfl, rfl, rfl⟩)

/-- Sending sends the message once, or fails and sends nothing. -/
theorem leads_transmit (reason : Reason terms.calls now.self phase message phase') :
    Leads terms (transmit message) phase now
      (fun _ events last now' => events = [.sent message] ∧ last = phase' ∧
        SameBut now.self now'.self)
      fun _ events last now' => events = [] ∧ last = phase ∧ now'.self = now.self := by
  have waits : (now.self.transport.isEndpoint = false → message.cap = none) →
      Leads terms (Task.await (onTransport (Transport.offer message SendFlags.standard))) phase now
        (fun _ events last now' => events = [.sent message] ∧ last = phase' ∧
          SameBut now.self now'.self)
        fun _ events last now' => events = [] ∧ last = phase ∧ now'.self = now.self := by
    intro capless
    refine leads_await now.self ?_ rfl
    intro mid same
    rw [← same] at reason capless ⊢
    refine (leads_offer reason capless SendFlags.standard).mono ?_ fun _ _ _ _ ends => ends
    rintro (_ | _) events last now' ends
    · exact ends
    · exact ends
  unfold transmit Transport.send Leads
  rw [onTransport_self_bind]
  cases across : now.self.transport with
  | endpoint ep =>
      simp only
      rw [onTransport_await]
      exact waits fun other => by rw [across] at other; cases other
  | slots chan =>
      cases carried : message.cap with
      | some cap => exact leads_fail ⟨rfl, rfl, rfl⟩
      | none =>
          by_cases long : message.words.length > chan.payloadWords
          · simp only [Option.isSome_none, Bool.false_eq_true, if_false, if_pos long]
            exact leads_fail ⟨rfl, rfl, rfl⟩
          · simp only [Option.isSome_none, Bool.false_eq_true, if_false, if_neg long]
            exact (congrFun (onTransport_await _) now).symm ▸ waits fun _ => carried

/-- A letter that was received is given out once the slot for the next capability is had. -/
theorem leads_giveOut {ep : Endpoint} (across : now.self.transport = .endpoint ep)
    (letter : Letter) (phase : Phase) :
    Leads terms (onTransport do
        if letter.cap.isSome then Task.request ep.allocRecvSlot
        return some ⟨letter.words.toList, letter.cap⟩) phase now
      (fun taken events last now' => taken = some letter.message ∧ events = [] ∧ last = phase ∧
        now'.self = now.self)
      fun _ events last now' => events = [] ∧ last = .spoiled ∧ now'.self = now.self := by
  by_cases carries : letter.cap.isSome = true
  · simp only [carries, if_true]
    unfold Task.request Leads
    rw [onTransport_bind, onTransport_bind, onTransport_asking, bind_assoc, Task.asking_bind]
    rcases answered : ep.allocRecvSlot now.scene.machine with ⟨e | u, m⟩
    · have slotless : Deal terms.calls terms.notices ⟨phase, now.self, now.scene.machine⟩ []
          ⟨.spoiled, now.self, m⟩ := .slotless across answered
      exact leads_deal slotless (leads_fail ⟨rfl, rfl, rfl⟩)
    · have slot : Deal terms.calls terms.notices ⟨phase, now.self, now.scene.machine⟩ []
          ⟨phase, now.self, m⟩ := .slot across answered
      exact leads_deal slot (leads_pure ⟨rfl, rfl, rfl, rfl⟩)
  · simp only [carries]
    exact leads_pure ⟨rfl, rfl, rfl, rfl⟩

/-- What was done, and what is in hand, when an endpoint has answered. -/
inductive Retrieved (phase : Phase) (pick : Message → Phase) :
    Except ChannelError Letter → List Event → Phase → Prop
  | letter (letter : Letter) :
      Retrieved phase pick (.ok letter) [.received letter.message] (pick letter.message)
  | none : Retrieved phase pick (.error .noMessage) [] phase
  | refused {e : ChannelError} (hard : e ≠ .noMessage) :
      Retrieved phase pick (.error e) [] .spoiled

/-- An endpoint is asked until it gives a message or says something final. -/
theorem leads_recv {ep : Endpoint} {pick : Message → Phase}
    (picks : ∀ message, Picks phase message (pick message))
    (across : now.self.transport = .endpoint ep) :
    Leads terms (Task.awaitAnswer (Task.asking ep.recv)) phase now
      (fun answer events last now' => now'.self = now.self ∧
        Retrieved phase pick answer events last) fun _ _ _ _ => False := by
  refine leads_await now.self ?_ rfl
  intro mid same
  rw [← same] at across ⊢
  unfold Leads
  rw [Task.asking_bind]
  rcases answered : ep.recv mid.scene.machine with ⟨e | letter, m⟩
  · cases e with
    | transient =>
        have vain : Deal terms.calls terms.notices ⟨phase, mid.self, mid.scene.machine⟩ []
            ⟨phase, mid.self, m⟩ := .vain across answered (.inl rfl)
        exact leads_deal vain (leads_pure ⟨rfl, rfl, rfl⟩)
    | noMessage =>
        have vain : Deal terms.calls terms.notices ⟨phase, mid.self, mid.scene.machine⟩ []
            ⟨phase, mid.self, m⟩ := .vain across answered (.inr rfl)
        exact leads_deal vain (leads_pure ⟨rfl, .none⟩)
    | _ =>
        have barred : Deal terms.calls terms.notices ⟨phase, mid.self, mid.scene.machine⟩ []
            ⟨.spoiled, mid.self, m⟩ := .barred across answered (by simp)
        exact leads_deal barred (leads_pure ⟨rfl, .refused (by simp)⟩)
  · have takes : Deal terms.calls terms.notices ⟨phase, mid.self, mid.scene.machine⟩
        [.received letter.message]
        ⟨pick letter.message, { mid.self with transport := .endpoint ep }, m⟩ :=
      .take (by rw [across]; exact .endpoint answered) (picks _)
    rw [carried_eq across] at takes
    exact leads_deal takes (leads_pure ⟨rfl, .letter letter⟩)

/-- Receiving takes one message or none. It fails if the kernel refuses, and a message that
was taken then is lost. -/
theorem leads_receive {pick : Message → Phase}
    (picks : ∀ message, Picks phase message (pick message)) :
    Leads terms (onTransport Transport.receive) phase now
      (fun taken events last now' => SameBut now.self now'.self ∧
        match taken with
        | none => events = [] ∧ last = phase ∧ now'.self = now.self
        | some message => events = [.received message] ∧ last = pick message)
      fun _ events last now' => last = .spoiled ∧ SameBut now.self now'.self ∧
        (events = [] ∨ ∃ message, events = [.received message]) := by
  unfold Leads Transport.receive
  rw [onTransport_self_bind]
  cases across : now.self.transport with
  | slots chan =>
      simp only
      rw [onTransport_machine_bind]
      cases ran : chan.receive chan.payloadWords now.scene.machine with
      | error cause => exact ⟨[], _, .nil _, .pane across (.inr (.inr (.inl ⟨_, ran⟩)))⟩
      | ok result =>
          obtain ⟨words, chan', m⟩ := result
          simp only [Task.orPanic_ok, pure_bind]
          rw [onTransport_setMachine_bind, onTransport_setSelf_bind]
          cases words with
          | none =>
              obtain ⟨rfl, rfl⟩ := SlotChannel.eq_of_receive_none ran
              rw [carried_eq across]
              exact ⟨[], phase, .nil _, rfl, rfl, rfl, rfl⟩
          | some words =>
              have takes : Deal terms.calls terms.notices ⟨phase, now.self, now.scene.machine⟩
                  [.received { words }]
                  ⟨pick { words }, { now.self with transport := .slots chan' }, m⟩ :=
                .take (by rw [across]; exact .slots ran) (picks _)
              exact leads_deal takes (leads_pure ⟨rfl, rfl, rfl⟩)
  | endpoint ep =>
      simp only
      rw [onTransport_bind, onTransport_awaitAnswer, onTransport_asking]
      refine leads_bind ((leads_recv picks across).mono ?_ fun _ _ _ _ never => never.elim)
      rintro answer events last mid ⟨same, answered⟩
      cases answered with
      | none => exact leads_pure ⟨.of_eq same, rfl, rfl, same⟩
      | @refused e hard =>
          cases e with
          | noMessage => exact absurd rfl hard
          | _ => exact leads_fail ⟨rfl, .of_eq same, .inl rfl⟩
      | letter letter =>
          rw [← same] at across
          refine (leads_giveOut across letter _).mono ?_ ?_
          · rintro taken events last now' ⟨rfl, rfl, rfl, kept⟩
            exact ⟨.of_eq (kept.trans same), rfl, rfl⟩
          · rintro e events last now' ⟨rfl, rfl, kept⟩
            exact ⟨rfl, .of_eq (kept.trans same), .inr ⟨_, rfl⟩⟩

end Conduit.Rpc

/-
# Serving over shared memory

The party that is called takes the request from its pane, has the handler answer, and sends
the results in a slot of the other pane. It needs no page and no kernel, so whether a reply
comes is settled by the handler alone: it comes if the handler answers with values that the
binding asks for and that fit a slot (`serves_request`).

In each turn of the caller the other party dispatches any number of times, and what comes
of each dispatch is noted (`noting`). The first dispatch serves the request, and all others
find nothing (`noting_replied`).
-/

import Conduit.Proofs.Call.Dispatch
import Conduit.Proofs.Call.Shared.Channel
import Conduit.Proofs.Call.Shared.Codec

namespace Conduit

namespace Rpc

namespace Shared

variable {η ζ σ τ α : Type} {low high : View} {p q : Transport} {toQ toP : List (List UInt64)}
  {t : MessageType} {binding : Binding} {args rets : List Value} {message request : Message}

/-! ### Messages -/

section Messages

variable (now : Moment (Rpc η) σ)

theorem encode_eq (slots : now.self.transport.isEndpoint = false) (tag : UInt64)
    (values : List Value) (side : Side) : encode t tag values side now =
      (Task.ofExcept (Inline.encode tag values now.self.transport.width) : Task _ σ _) now := by
  obtain ⟨rpc, scene, turns⟩ := now
  unfold encode
  rw [Task.self_bind]
  cases across : rpc.transport with
  | endpoint ep =>
      simp only [across] at slots
      cases slots
  | slots chan => rfl

theorem decode_eq (slots : now.self.transport.isEndpoint = false) (kinds : List Kind)
    (message : Message) (side : Side) : decode t kinds message side now =
      (Task.ofExcept (Inline.decode t kinds message) : Task _ σ _) now := by
  obtain ⟨rpc, scene, turns⟩ := now
  unfold decode
  rw [Task.self_bind]
  cases across : rpc.transport with
  | endpoint ep =>
      simp only [across] at slots
      cases slots
  | slots chan => rfl

/-- A message was sent by a party at one end, and nothing else is on the way. -/
structure Sent (low high : View) (rpc : Rpc η) (m : Machine) (q : Transport) (message : Message)
    (p : Transport) (memory : Memory) : Prop where
  slotted : Slotted low high memory p q [message.words] []
  confined : Confined low high m.memory memory
  ran : ∀ (σ : Type) (s : σ) (turns : List (Turn σ)),
    transmit message ⟨rpc, ⟨m, s⟩, turns⟩ =
      .ok () ⟨{ rpc with transport := p }, ⟨{ m with memory }, s⟩, turns⟩

/-- A message that fills a slot is sent at once if nothing is on the way. -/
theorem transmit_ok (rpc : Rpc η) {m : Machine}
    (slotted : Slotted low high m.memory rpc.transport q [] [])
    (fits : message.words.length = rpc.transport.width) (capless : message.cap = none) :
    ∃ p memory, Sent low high rpc m q message p memory := by
  obtain ⟨p, memory, slotted', confined, sent⟩ := slotted.send fits capless
  exact ⟨p, memory, slotted', confined, fun σ s turns =>
    onTransport_ok rpc rfl (sent σ s turns SendFlags.standard)⟩

end Messages

theorem capless_args (plain : binding.usesCaps = false) : .cap ∉ binding.args := by
  intro mem
  have uses : binding.usesCaps = true := by
    rw [Binding.usesCaps, List.contains_iff_mem]
    exact List.mem_append_left _ mem
  cases uses.symm.trans plain

theorem capless_rets (plain : binding.usesCaps = false) : .cap ∉ binding.rets := by
  intro mem
  have uses : binding.usesCaps = true := by
    rw [Binding.usesCaps, List.contains_iff_mem]
    exact List.mem_append_right _ mem
  cases uses.symm.trans plain

/-! ### Serving one request -/

/-- However a handler ends, unless it ends everything, it leaves both panes alone. -/
def Aloof (low high : View) (ζ τ : Type) [Handler ζ τ] : Prop :=
  ∀ (handler : ζ) (m : Machine) (s : τ) (args : List Value),
    m.memory.Holds low → m.memory.Holds high →
    Task.Ends (Handler.respond args ⟨handler, ⟨m, s⟩, []⟩)
      (fun _ now => Spared low high m.memory now.scene.machine.memory)
      fun stop now => ∀ e, stop = .failed e → Spared low high m.memory now.scene.machine.memory

theorem Aloof.symm [Handler ζ τ] (aloof : Aloof low high ζ τ) : Aloof high low ζ τ := by
  intro handler m s args heldHigh heldLow
  refine (aloof handler m s args heldLow heldHigh).mono ?_ ?_
  · exact fun rets now spared => spared.symm
  · exact fun stop now spared e same => (spared e same).symm

/-- The handler returns values of the right kinds that fit a slot. -/
def Complies [Handler ζ τ] (rpc : Rpc ζ) (binding : Binding) (t : MessageType)
    (args : List Value) (m : Machine) (s : τ) (width : Nat) : Prop :=
  ∃ rets handler m' s', Responds rpc t args m s rets handler m' s' ∧
    rets.map Value.kind = binding.rets ∧ Inline.size rets ≤ width

/-- The handler answered, and the reply that is on its way to the caller holds the
results. -/
structure Replied [Handler ζ τ] (low high : View) (p : Transport) (now : Moment (Rpc ζ) τ)
    (binding : Binding) (t : MessageType) (args : List Value) (m : Machine)
    (rets : List Value) (handler : ζ) (m' : Machine) (reply : Message)
    (now' : Moment (Rpc ζ) τ) : Prop where
  responds : Responds now.self t args m now.scene.others rets handler m' now'.scene.others
  kinds : rets.map Value.kind = binding.rets
  holding : Inline.Holding t t.responseTag rets p.width reply
  served : serveOne now = .ok (.handled t) now'
  self : now'.self = { now.self.handle t handler with transport := now'.self.transport }
  machine : now'.scene.machine = { m' with memory := now'.scene.machine.memory }
  confined : Confined low high m'.memory now'.scene.machine.memory
  slotted : Slotted low high now'.scene.machine.memory p now'.self.transport [] [reply.words]

/-- Serving the message gives no reply. -/
def Silent [Handler ζ τ] (low high : View) (p : Transport) (now : Moment (Rpc ζ) τ) : Prop :=
  Task.Ends (serveOne now) (fun _ _ => False) fun stop now' => ∀ e, stop = .failed e →
    Slotted low high now'.scene.machine.memory p now'.self.transport [] []

/-- The reply is sent if the results are of the right kinds and fit a slot. -/
theorem finish_cases (rpc : Rpc ζ) (m : Machine) (s : τ) (turns : List (Turn τ))
    {kinds : List Kind} (slotted : Slotted low high m.memory p rpc.transport [] [])
    (capless : .cap ∉ kinds) (rets : List Value) (outcome : Dispatch) :
    (rets.map Value.kind = kinds ∧ ∃ reply q memory,
        Inline.Holding t t.responseTag rets p.width reply ∧
        Slotted low high memory p q [] [reply.words] ∧ Confined low high m.memory memory ∧
        finish t kinds rets outcome ⟨rpc, ⟨m, s⟩, turns⟩ =
          .ok outcome ⟨{ rpc with transport := q }, ⟨{ m with memory }, s⟩, turns⟩) ∨
      ¬ (rets.map Value.kind = kinds ∧ Inline.size rets ≤ p.width) ∧ ∃ e,
        finish t kinds rets outcome ⟨rpc, ⟨m, s⟩, turns⟩ =
          .error (.failed e) ⟨rpc, ⟨m, s⟩, turns⟩ := by
  have encoded := encode_eq ⟨rpc, ⟨m, s⟩, turns⟩ (t := t) slotted.symm.isEndpoint
    t.responseTag rets .far
  by_cases right : rets.map Value.kind = kinds
  · have checked : Value.check t kinds rets = .ok () := if_pos right
    have width := slotted.width_eq
    rcases Inline.encode_cases t t.responseTag (right ▸ capless) slotted.one_le_width
      slotted.width_lt with ⟨fits, reply, written, holding⟩ | ⟨large, e, refused⟩
    · obtain ⟨q, memory, sent⟩ :=
        transmit_ok rpc slotted.symm (holding.width.trans width.symm) holding.capless
      refine .inl ⟨right, reply, q, memory, holding, sent.slotted.symm, sent.confined.symm, ?_⟩
      simp only [width, written] at encoded
      unfold finish
      simp only [checked, Task.ofExcept, pure_bind]
      exact (Task.bind_ok encoded).trans (Task.bind_ok (sent.ran τ s turns))
    · refine .inr ⟨fun both => Nat.not_le.mpr large both.2, e, ?_⟩
      simp only [width, refused] at encoded
      unfold finish
      simp only [checked, Task.ofExcept, pure_bind]
      exact Task.bind_error encoded
  · have checked : Value.check t kinds rets = .error (.argMismatch t) := if_neg right
    refine .inr ⟨fun both => right both.1, .argMismatch t, ?_⟩
    unfold finish
    rw [checked]
    rfl

section Requests

variable [Handler ζ τ] (rpc : Rpc ζ) {m : Machine} {s : τ}

/-- A request whose binding is known is taken, and its arguments are given to the
handler. -/
theorem serveOne_request (slotted : Slotted low high m.memory p rpc.transport [request.words] [])
    (holding : Inline.Holding t t.code args p.width request)
    (known : rpc.binding? t = some binding) (kinds : args.map Value.kind = binding.args)
    (notSetup : t ≠ setupPage) (notInitiate : t ≠ initiate)
    (asks : MessageType.isResponse t.code = false) :
    ∃ q memory, Slotted low high memory p q [] [] ∧ Confined low high m.memory memory ∧
      serveOne ⟨rpc, ⟨m, s⟩, []⟩ =
        (answer t args >>= fun rets => finish t binding.rets rets (.handled t))
          ⟨{ rpc with transport := q }, ⟨{ m with memory }, s⟩, []⟩ := by
  obtain ⟨q, memory, slotted', confined, received⟩ := slotted.receive_cons
  refine ⟨q, memory, slotted', confined, ?_⟩
  have taken := onTransport_ok rpc rfl (received τ s [])
  have whole : ({ words := request.words } : Message) = request := by rw [← holding.capless]
  have asks : ¬ MessageType.isResponse request.tag = true := by
    rw [holding.tag, asks]
    exact Bool.false_ne_true
  have type : (⟨request.tag⟩ : MessageType) = t := by rw [holding.tag]
  have known : Rpc.binding? { rpc with transport := q } t = some binding := known
  have decoded := decode_eq ⟨{ rpc with transport := q }, ⟨{ m with memory }, s⟩, []⟩
    (t := t) slotted'.symm.isEndpoint binding.args request .far
  have reads := holding.reads
  rw [kinds] at reads
  rw [reads] at decoded
  unfold serveOne
  rw [Task.bind_ok taken]
  simp only [whole, Task.self_bind, if_neg asks, type, known]
  exact serveRequest_eq decoded notSetup notInitiate

/-- A request is answered exactly if its handler answers as it should. -/
theorem serves_request (aloof : Aloof low high ζ τ)
    (slotted : Slotted low high m.memory p rpc.transport [request.words] [])
    (holding : Inline.Holding t t.code args p.width request)
    (known : rpc.binding? t = some binding) (plain : binding.usesCaps = false)
    (kinds : args.map Value.kind = binding.args) (notSetup : t ≠ setupPage)
    (notInitiate : t ≠ initiate) (asks : MessageType.isResponse t.code = false) :
    ∃ memory, Confined low high m.memory memory ∧
      ((∃ rets handler m' reply now', Replied low high p ⟨rpc, ⟨m, s⟩, []⟩ binding t args
          { m with memory } rets handler m' reply now') ∨
        ¬ Complies rpc binding t args { m with memory } s p.width ∧
          Silent low high p ⟨rpc, ⟨m, s⟩, []⟩) := by
  obtain ⟨q, memory, slotted', confined, served⟩ :=
    serveOne_request (s := s) rpc slotted holding known kinds notSetup notInitiate asks
  refine ⟨memory, confined, ?_⟩
  unfold Silent
  cases handled : rpc.handlers.get? t with
  | none =>
      have failed := served.trans (Task.bind_error
        (answer_none { rpc with transport := q } handled))
      right
      constructor
      · rintro ⟨rets, handler, m', s', ⟨first, turns, some, -⟩, -, -⟩
        cases handled.symm.trans some
      · rw [failed]
        exact fun e _ => slotted'
  | some first =>
      have held := slotted'.held
      have ends := aloof first { m with memory } s args held.1 held.2
      cases ran : Handler.respond args ⟨first, ⟨{ m with memory }, s⟩, []⟩ with
      | error stop now =>
          have stopped := served.trans (Task.bind_error
            (answer_error { rpc with transport := q } handled ran))
          rw [ran] at ends
          right
          constructor
          · rintro ⟨rets, handler, m', s', ⟨other, turns, some, ok⟩, -, -⟩
            obtain rfl := Option.some.inj (handled.symm.trans some)
            cases ran.symm.trans ok
          · rw [stopped]
            exact fun e same => slotted'.spared (ends e same)
      | ok rets now =>
          have answered := served.trans (Task.bind_ok
            (answer_ok { rpc with transport := q } handled ran))
          rw [ran] at ends
          rcases finish_cases (t := t) ({ rpc with transport := q }.handle t now.self)
            now.scene.machine now.scene.others now.turns (slotted'.spared ends)
            (capless_rets plain) rets (.handled t) with
            ⟨right, reply, q', memory', holding', slotted₂, confined', finished⟩ |
              ⟨never, e, refused⟩
          · exact .inl ⟨rets, now.self, now.scene.machine, reply, _, {
              responds := ⟨first, now.turns, handled, ran⟩
              kinds := right
              holding := holding'
              served := answered.trans finished
              self := rfl
              machine := rfl
              confined := confined'
              slotted := slotted₂ }⟩
          · right
            constructor
            · rintro ⟨rets', handler, m', s', ⟨other, turns, some, ok⟩, right, fits⟩
              obtain rfl := Option.some.inj (handled.symm.trans some)
              obtain ⟨rfl, rfl⟩ := EStateM.Result.ok.inj (ran.symm.trans ok)
              exact never ⟨right, fits⟩
            · rw [answered.trans refused]
              exact fun e _ => slotted'.spared ends

end Requests

/-! ### Dispatching -/

section Acts

variable [Handler ζ τ] {now : Moment (Rpc ζ) τ}

/-- Serving the message ends everything, or leaves the party at its end. -/
def Stays (now : Moment (Rpc ζ) τ) : Prop :=
  Task.Ends (serveOne now) (fun _ now' => now'.self.transport.isEndpoint = false)
    fun stop now' => ∀ e, stop = .failed e → now'.self.transport.isEndpoint = false

/-- Over shared memory nothing is armed, so what is served is all that happens. -/
theorem onMessage_eq (stays : Stays now) : onMessage now = serveOne now := by
  have armed {now' : Moment (Rpc ζ) τ} (slots : now'.self.transport.isEndpoint = false) :
      onTransport Transport.rearm now' = .ok () now' := by
    obtain ⟨rpc, scene, turns⟩ := now'
    refine onTransport_still rpc rfl ?_
    cases across : rpc.transport with
    | endpoint ep =>
        simp only [across] at slots
        cases slots
    | slots chan => rfl
  unfold Stays at stays
  unfold onMessage
  cases served : serveOne now with
  | ok dispatch now' =>
      rw [served] at stays
      rw [Task.bind_ok (Task.settle_ok served), Task.bind_ok (Task.settle_ok (armed stays))]
      rfl
  | error stop now' =>
      rw [served] at stays
      cases stop with
      | failed e =>
          rw [Task.bind_ok (Task.settle_failed served),
            Task.bind_ok (Task.settle_ok (armed (stays e rfl)))]
          rfl
      | halted h =>
          have settled : Task.settle serveOne now = .error (.halted h) now' := by
            simp only [Task.settle, served]
          rw [Task.bind_error settled]

/-- Where no message waits, nothing happens. -/
theorem act_idle (now : Moment (Rpc ζ) τ)
    (slotted : Slotted low high now.scene.machine.memory p now.self.transport [] toP)
    (act : Act) : act.task now = .ok .idle now := by
  obtain ⟨rpc, ⟨m, s⟩, turns⟩ := now
  cases act with
  | pending =>
      have event := onTransport_still rpc rfl (slotted.takeEvent s turns)
      change dispatchPending _ = _
      unfold dispatchPending
      rw [Task.bind_ok event]
      rfl
  | message =>
      have empty := onTransport_still rpc rfl (slotted.receive_nil s turns)
      have served : (serveOne : Task (Rpc ζ) τ Dispatch) ⟨rpc, ⟨m, s⟩, turns⟩ =
          .ok .idle ⟨rpc, ⟨m, s⟩, turns⟩ := by
        unfold serveOne
        rw [Task.bind_ok empty]
        rfl
      refine (onMessage_eq ?_).trans served
      unfold Stays
      rw [served]
      exact slotted.symm.isEndpoint

/-- Either kind of dispatch serves a message that waits. -/
theorem act_serves (now : Moment (Rpc ζ) τ) {words : List UInt64} {rest : List (List UInt64)}
    (slotted : Slotted low high now.scene.machine.memory p now.self.transport (words :: rest) toP)
    (stays : Stays now) (act : Act) : act.task now = serveOne now := by
  obtain ⟨rpc, ⟨m, s⟩, turns⟩ := now
  cases act with
  | pending =>
      have event := onTransport_still rpc rfl (slotted.takeEvent s turns)
      change dispatchPending _ = _
      unfold dispatchPending
      rw [Task.bind_ok event]
      exact onMessage_eq stays
  | message => exact onMessage_eq stays

end Acts

/-! ### Dispatching while the other waits -/

/-- The party that is called, what its handlers see besides, and what came of each of its
dispatches. -/
structure Callee (ζ τ : Type) where
  /-- The party. -/
  rpc : Rpc ζ
  /-- The rest. -/
  rest : τ
  /-- What came of its dispatches, the first one first. -/
  log : List (Except Error Dispatch) := []

/-- What the caller sees of a dispatch that came to this end. -/
def Callee.noted (callee : Callee ζ τ) (outcome : Except Error Dispatch)
    (now : Moment (Rpc ζ) τ) : Scene (Callee ζ τ) :=
  ⟨now.scene.machine, ⟨now.self, now.scene.others, callee.log ++ [outcome]⟩⟩

/-- The moment in which the other party dispatches. -/
def turnOf (scene : Scene (Callee ζ τ)) : Moment (Rpc ζ) τ :=
  ⟨scene.others.rpc, ⟨scene.machine, scene.others.rest⟩, []⟩

/-- The other party dispatches as often as it is told, and notes what comes of it. A
dispatch that fails ends nothing. -/
def noting [Handler ζ τ] : List Act → Turn (Callee ζ τ)
  | [] => fun scene => .ok () scene
  | act :: acts => fun scene =>
      match act.task (turnOf scene) with
      | .ok dispatch now => noting acts (scene.others.noted (.ok dispatch) now)
      | .error (.failed e) now => noting acts (scene.others.noted (.error e) now)
      | .error (.halted h) now => .error h ⟨now.scene.machine,
          { scene.others with rpc := now.self, rest := now.scene.others }⟩

/-- The dispatches that found no message. -/
def idles (count : Nat) : List (Except Error Dispatch) := List.replicate count (.ok .idle)

section Visits

variable [Handler ζ τ] {scene : Scene (Callee ζ τ)} {m m' : Machine} {handler : ζ}
  {reply : Message} {now : Moment (Rpc ζ) τ}

/-- Dispatches that find no message are noted, and nothing else happens. -/
theorem noting_idle (scene : Scene (Callee ζ τ))
    (slotted : Slotted low high scene.machine.memory p scene.others.rpc.transport [] toP)
    (acts : List Act) :
    noting acts scene =
      .ok () ⟨scene.machine, { scene.others with
        log := scene.others.log ++ idles acts.length }⟩ := by
  induction acts generalizing scene with
  | nil =>
      rw [idles, List.length_nil, List.replicate_zero, List.append_nil]
      rfl
  | cons act acts ih =>
      have idle : act.task (turnOf scene) = .ok .idle (turnOf scene) := act_idle (turnOf scene) slotted act
      have later := ih (scene.others.noted (.ok .idle) (turnOf scene)) slotted
      unfold noting
      rw [idle]
      refine later.trans ?_
      simp only [Callee.noted, turnOf, idles, List.length_cons, List.replicate_succ,
        List.append_assoc, List.singleton_append]

/-- A turn in which the other party dispatches serves the request, once. -/
theorem noting_replied {words : List UInt64} {rest : List (List UInt64)}
    (slotted : Slotted low high scene.machine.memory p scene.others.rpc.transport
      (words :: rest) toP)
    (replied : Replied low high p (turnOf scene) binding t args m rets handler m' reply now)
    (act : Act) (acts : List Act) :
    noting (act :: acts) scene = .ok () ⟨now.scene.machine, ⟨now.self, now.scene.others,
      scene.others.log ++ .ok (.handled t) :: idles acts.length⟩⟩ := by
  have stays : Stays (turnOf scene) := by
    unfold Stays
    rw [replied.served]
    exact replied.slotted.symm.isEndpoint
  have served := (act_serves (turnOf scene) slotted stays act).trans replied.served
  have later := noting_idle (scene.others.noted (.ok (.handled t)) now) replied.slotted acts
  unfold noting
  rw [served]
  refine later.trans ?_
  simp only [Callee.noted, List.append_assoc, List.singleton_append]

/-- A turn in which the request is not answered ends everything or leaves nothing on the
way. -/
theorem noting_silent {words : List UInt64} {rest : List (List UInt64)}
    (slotted : Slotted low high scene.machine.memory p scene.others.rpc.transport
      (words :: rest) toP)
    (silent : Silent low high p (turnOf scene)) (act : Act) (acts : List Act) :
    (∃ h scene', noting (act :: acts) scene = .error h scene') ∨
      ∃ scene', noting (act :: acts) scene = .ok () scene' ∧
        Slotted low high scene'.machine.memory p scene'.others.rpc.transport [] [] := by
  have stays : Stays (turnOf scene) :=
    Task.Ends.mono silent (fun _ _ never => never.elim)
      fun stop now' still e same => (still e same).symm.isEndpoint
  have task := act_serves (turnOf scene) slotted stays act
  unfold Silent at silent
  unfold noting
  rw [task]
  cases served : serveOne (turnOf scene) with
  | ok dispatch now' =>
      rw [served] at silent
      exact False.elim silent
  | error stop now' =>
      rw [served] at silent
      cases stop with
      | failed e =>
          have idle := silent e rfl
          exact .inr ⟨_, noting_idle (scene.others.noted (.error e) now') idle acts, idle⟩
      | halted h => exact .inl ⟨h, _, rfl⟩

end Visits

end Shared

end Rpc

end Conduit

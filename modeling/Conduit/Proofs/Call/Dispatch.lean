/-
# Serving one request

The party that is called takes the request from its queue, reads the arguments from the
page it shares with the caller, has the handler answer, and writes the results to the same
page. Nothing else waits on the channel, so what comes of it is settled by the handler
alone: the reply is sent if the handler answers with values that the binding asks for and
that fit the page (`serves_request`), and otherwise no reply comes at all. The call that
sets up a page is served without a handler, and always answered (`serves_setup`).
-/

import Conduit.Proofs.Call.Codec
import Conduit.Proofs.Call.Visits

namespace Conduit

namespace Rpc

variable {η ζ σ τ α : Type} {a b : Cap} {t : MessageType} {message : Message}
  {values args rets : List Value} {binding : Binding}

/-- The page lies inside its block, and its bytes can be addressed. -/
def Mapped (m : Memory) (page : Option View) : Prop :=
  ∀ view, page = some view → m.Holds view ∧ view.words < Memory.wordLimit

theorem Mapped.grows {m m' : Memory} {page : Option View} (mapped : Mapped m page)
    (grows : m.Grows m') : Mapped m' page := fun view same =>
  ⟨grows.holds view (mapped view same).1, (mapped view same).2⟩

/-! ### Reading and writing messages -/

section Values

variable {rpc : Rpc η} {ep : Endpoint} {m : Machine} {s : σ} {turns : List (Turn σ)} {side : Side}

theorem decode_ok (across : rpc.transport = .endpoint ep) {kinds : List Kind}
    (decoded : Paged.decode t kinds message (rpc.page? t side) m.memory = .ok (.ok values)) :
    decode t kinds message side ⟨rpc, ⟨m, s⟩, turns⟩ = .ok values ⟨rpc, ⟨m, s⟩, turns⟩ := by
  unfold decode
  rw [Task.self_bind, across]
  simp only [Task.machine_bind, decoded]
  rfl

/-- Writing a message changes the memory alone, whatever the endpoint. -/
theorem encode_cases (rpc : Rpc η) (m : Machine) (s : σ) (tag : UInt64) (values : List Value)
    (mapped : Mapped m.memory (rpc.page? t side)) :
    ∃ memory, m.memory.Grows memory ∧
      ((∃ message, Paged.Holding t (rpc.page? t side) values tag message memory ∧
          ∀ (ep : Endpoint) (turns : List (Turn σ)),
            encode t tag values side ⟨{ rpc with transport := .endpoint ep }, ⟨m, s⟩, turns⟩ =
              .ok message ⟨{ rpc with transport := .endpoint ep }, ⟨{ m with memory }, s⟩, turns⟩) ∨
        ¬ Paged.Fits (rpc.page? t side) { words := [tag] } values ∧ ∃ e,
          ∀ (ep : Endpoint) (turns : List (Turn σ)),
            encode t tag values side ⟨{ rpc with transport := .endpoint ep }, ⟨m, s⟩, turns⟩ =
              .error (.failed e)
                ⟨{ rpc with transport := .endpoint ep }, ⟨{ m with memory }, s⟩, turns⟩) := by
  obtain ⟨result, memory, encoded, grows, holding, succeeds⟩ :=
    Paged.encode_cases t tag values mapped
  refine ⟨memory, grows, ?_⟩
  have encoded (ep : Endpoint) : Paged.encode t tag values
      (Rpc.page? { rpc with transport := .endpoint ep } t side) m.memory =
        .ok (result, memory) := encoded
  cases result with
  | ok message =>
      refine .inl ⟨message, holding message rfl, fun ep turns => ?_⟩
      unfold encode
      simp only [Task.self_bind, Task.machine_bind, encoded ep]
      rfl
  | error e =>
      refine .inr ⟨?_, e, fun ep turns => ?_⟩
      · intro fits
        obtain ⟨message, same⟩ := succeeds fits
        cases same
      · unfold encode
        simp only [Task.self_bind, Task.machine_bind, encoded ep]
        rfl

end Values

/-! ### The end of serving -/

/-- The results are checked, written and sent. -/
def finish (t : MessageType) (kinds : List Kind) (rets : List Value) (outcome : Dispatch) :
    Task (Rpc ζ) τ Dispatch := do
  Task.ofExcept (Value.check t kinds rets)
  let reply ← encode t t.responseTag rets .far
  transmit reply
  return outcome

section Finish

variable {rpc : Rpc ζ} {ep : Endpoint} {m : Machine} {s : τ} {atB : List Letter}

theorem transmit_ok (rpc : Rpc ζ) (across : rpc.transport = .endpoint ep)
    (duplex : Duplex m b a atB []) (peer : ep.peer = some a) (message : Message) (turns : List (Turn τ)) :
    transmit message ⟨rpc, ⟨m, s⟩, turns⟩ =
      .ok () ⟨rpc, ⟨m.posted a [message.letter] SendFlags.standard, s⟩, turns⟩ :=
  onTransport_still rpc across (duplex.send s turns peer message SendFlags.standard)

/-- The reply is sent if the results are of the right kinds and fit the page. -/
theorem finish_cases (rpc : Rpc ζ) (s : τ) (duplex : Duplex m a b [] [])
    (mapped : Mapped m.memory (rpc.page? t .far)) (kinds : List Kind) (rets : List Value)
    (outcome : Dispatch) :
    ∃ memory, m.memory.Grows memory ∧
      ((∃ reply, rets.map Value.kind = kinds ∧
          Paged.Holding t (rpc.page? t .far) rets t.responseTag reply memory ∧
          ∀ (ep : Endpoint) (turns : List (Turn τ)), ep.peer = some a →
            finish t kinds rets outcome
                ⟨{ rpc with transport := .endpoint ep }, ⟨m, s⟩, turns⟩ =
              .ok outcome ⟨{ rpc with transport := .endpoint ep },
                ⟨({ m with memory } : Machine).posted a [reply.letter] SendFlags.standard, s⟩,
                turns⟩) ∨
        ¬ (rets.map Value.kind = kinds ∧
          Paged.Fits (rpc.page? t .far) { words := [t.responseTag] } rets) ∧ ∃ e,
          ∀ (ep : Endpoint) (turns : List (Turn τ)), ep.peer = some a →
            finish t kinds rets outcome
                ⟨{ rpc with transport := .endpoint ep }, ⟨m, s⟩, turns⟩ =
              .error (.failed e)
                ⟨{ rpc with transport := .endpoint ep }, ⟨{ m with memory }, s⟩, turns⟩) := by
  by_cases right : rets.map Value.kind = kinds
  · have checked : Value.check t kinds rets = .ok () := if_pos right
    obtain ⟨memory, grows, ⟨reply, holding, encoded⟩ | ⟨never, e, refused⟩⟩ :=
      encode_cases rpc m s t.responseTag rets mapped
    · refine ⟨memory, grows, .inl ⟨reply, right, holding, fun ep turns peer => ?_⟩⟩
      have sent := transmit_ok (m := { m with memory }) (s := s)
        { rpc with transport := .endpoint ep } rfl (duplex.symm.congr rfl rfl rfl) peer reply turns
      unfold finish
      simp only [checked, Task.ofExcept, pure_bind]
      exact (Task.bind_ok (encoded ep turns)).trans (Task.bind_ok sent)
    · refine ⟨memory, grows, .inr ⟨fun fits => never fits.2, e, fun ep turns _ => ?_⟩⟩
      unfold finish
      simp only [checked, Task.ofExcept, pure_bind]
      exact Task.bind_error (refused ep turns)
  · have checked : Value.check t kinds rets = .error (.argMismatch t) := if_neg right
    refine ⟨m.memory, .refl _, .inr ⟨fun fits => right fits.1, .argMismatch t, ?_⟩⟩
    intro ep turns _
    unfold finish
    rw [checked]
    rfl

end Finish

/-! ### Taking the message -/

section Taking

variable [Handler ζ τ] {scene : Scene (Rpc ζ × τ)} {request : Message}

/-- A request whose binding is known is taken and served, unless it carries a capability
and no slot is left for the next one. -/
theorem serveOne_request (ready : Ready a b scene [] [request.letter])
    (whole : request.letter.message = request) (tag : request.tag = t.code)
    (asks : MessageType.isResponse t.code = false)
    (known : scene.others.1.binding? t = some binding) {slots : Nat}
    (costs : request.cap.isSome → slots = 1) :
    ∃ m, Duplex m a b [] [] ∧ scene.machine.Spends m slots ∧
      ((∀ ep : Endpoint, ep.home = b → ep.peer = some a →
          serveOne ⟨{ scene.others.1 with transport := .endpoint ep },
              ⟨scene.machine, scene.others.2⟩, []⟩ =
            (serveRequest binding request t : Task (Rpc ζ) τ Dispatch)
              ⟨{ scene.others.1 with transport := .endpoint ep }, ⟨m, scene.others.2⟩, []⟩) ∨
        ¬ scene.machine.Room slots ∧ Silent a b scene) := by
  obtain ⟨m, duplex, spends, received | ⟨full, e, refused⟩⟩ :=
    ready.duplex.symm.receive_cons (costs : request.letter.cap.isSome → slots = 1)
  · refine ⟨m, duplex.symm, spends, .inl fun ep home peer => ?_⟩
    have taken := onTransport_still { scene.others.1 with transport := .endpoint ep } rfl
      (received ep τ scene.others.2 [] home)
    have asks : ¬ MessageType.isResponse request.tag = true := by
      rw [tag, asks]
      exact Bool.false_ne_true
    have type : (⟨request.tag⟩ : MessageType) = t := by rw [tag]
    unfold serveOne
    rw [Task.bind_ok taken]
    simp only [whole, Task.self_bind, if_neg asks, type]
    rw [show Rpc.binding? { scene.others.1 with transport := .endpoint ep } t = some binding
      from known]
  · refine ⟨m, duplex.symm, spends, .inr ⟨full, .inr ⟨.error e, ⟨m, scene.others⟩, ?_, ?_⟩⟩⟩
    · intro ep home peer
      have lost := onTransport_refused { scene.others.1 with transport := .endpoint ep }
        rfl (refused ep τ scene.others.2 [] home)
      refine ⟨[], Task.settle_failed ?_⟩
      unfold serveOne
      exact Task.bind_error lost
    · exact ⟨ready.across, duplex.symm⟩

end Taking

/-! ### Requests for a handler -/

/-- What a handler leaves behind: the channel as it was, and a memory with no block less. -/
structure Leaves (a b : Cap) (m m' : Machine) : Prop where
  duplex : Duplex m' a b [] []
  grows : m.memory.Grows m'.memory

theorem Leaves.symm {m m' : Machine} (leaves : Leaves a b m m') : Leaves b a m m' :=
  ⟨leaves.duplex.symm, leaves.grows⟩

/-- However a handler ends, unless it ends everything, it leaves the channel alone. -/
def Discreet (a b : Cap) (ζ τ : Type) [Handler ζ τ] : Prop :=
  ∀ (handler : ζ) (m : Machine) (s : τ) (args : List Value), Duplex m a b [] [] →
    Task.Ends (Handler.respond args ⟨handler, ⟨m, s⟩, []⟩)
      (fun _ now => Leaves a b m now.scene.machine)
      fun stop now => ∀ e, stop = .failed e → Leaves a b m now.scene.machine

theorem Discreet.symm [Handler ζ τ] (discreet : Discreet a b ζ τ) : Discreet b a ζ τ := by
  intro handler m s args duplex
  refine (discreet handler m s args duplex.symm).mono ?_ ?_
  · exact fun rets now leaves => leaves.symm
  · exact fun stop now leaves e same => (leaves e same).symm

/-- The handler of a message type, run once on these arguments, returns these values. -/
def Responds [Handler ζ τ] (rpc : Rpc ζ) (t : MessageType) (args : List Value) (m : Machine)
    (s : τ) (rets : List Value) (handler : ζ) (m' : Machine) (s' : τ) : Prop :=
  ∃ first turns, rpc.handlers.get? t = some first ∧
    Handler.respond args ⟨first, ⟨m, s⟩, []⟩ = .ok rets ⟨handler, ⟨m', s'⟩, turns⟩

/-- A handler that is run on the same arguments at the same machine does the same. -/
theorem Responds.unique [Handler ζ τ] {rpc : Rpc ζ} {s s' s'' : τ} {rets' : List Value}
    {handler handler' : ζ} {m m' m'' : Machine} (one : Responds rpc t args m s rets handler m' s')
    (other : Responds rpc t args m s rets' handler' m'' s'') :
    rets = rets' ∧ handler = handler' ∧ m' = m'' ∧ s' = s'' := by
  obtain ⟨first, turns, handled, ran⟩ := one
  obtain ⟨first', turns', handled', ran'⟩ := other
  obtain rfl := Option.some.inj (handled.symm.trans handled')
  obtain ⟨rfl, same⟩ := EStateM.Result.ok.inj (ran.symm.trans ran')
  cases same
  exact ⟨rfl, rfl, rfl, rfl⟩

section Requests

variable [Handler ζ τ] (rpc : Rpc ζ) {m : Machine} {s : τ} {scene : Scene (Rpc ζ × τ)}
  {request : Message} {ep : Endpoint}

/-- A request of a type that the party does not serve itself is for its handler. -/
theorem serveRequest_eq {now : Moment (Rpc ζ) τ}
    (decoded : decode t binding.args request .far now = .ok args now)
    (notSetup : t ≠ setupPage) (notInitiate : t ≠ initiate) :
    serveRequest binding request t now =
      (answer t args >>= fun rets => finish t binding.rets rets (.handled t)) now := by
  unfold serveRequest
  rw [Task.bind_ok decoded, if_neg notSetup, if_neg notInitiate]
  rfl

theorem answer_none (missing : rpc.handlers.get? t = none) :
    (answer t args : Task (Rpc ζ) τ (List Value)) ⟨rpc, ⟨m, s⟩, []⟩ =
      .error (.failed (.noHandler t)) ⟨rpc, ⟨m, s⟩, []⟩ := by
  unfold answer
  rw [Task.self_bind, missing]
  rfl

theorem answer_ok {first : ζ} {now : Moment ζ τ} (handled : rpc.handlers.get? t = some first)
    (ran : Handler.respond args ⟨first, ⟨m, s⟩, []⟩ = .ok rets now) :
    (answer t args : Task (Rpc ζ) τ (List Value)) ⟨rpc, ⟨m, s⟩, []⟩ =
      .ok rets ⟨rpc.handle t now.self, now.scene, now.turns⟩ := by
  unfold answer
  rw [Task.self_bind, handled]
  simp only [Task.within, ran]

theorem answer_error {first : ζ} {now : Moment ζ τ} {stop : Stop}
    (handled : rpc.handlers.get? t = some first)
    (ran : Handler.respond args ⟨first, ⟨m, s⟩, []⟩ = .error stop now) :
    (answer t args : Task (Rpc ζ) τ (List Value)) ⟨rpc, ⟨m, s⟩, []⟩ =
      .error stop ⟨rpc.handle t now.self, now.scene, now.turns⟩ := by
  unfold answer
  rw [Task.self_bind, handled]
  simp only [Task.within, ran]

/-- Serving the message that waits is having the handler answer these arguments. -/
def Takes (a b : Cap) (scene : Scene (Rpc ζ × τ)) (binding : Binding) (t : MessageType)
    (args : List Value) (m : Machine) : Prop :=
  ∀ ep : Endpoint, ep.home = b → ep.peer = some a →
    serveOne ⟨{ scene.others.1 with transport := .endpoint ep },
        ⟨scene.machine, scene.others.2⟩, []⟩ =
      (answer t args >>= fun rets => finish t binding.rets rets (.handled t))
        ⟨{ scene.others.1 with transport := .endpoint ep }, ⟨m, scene.others.2⟩, []⟩

/-- The handler returns values of the right kinds whose strings fit the page. -/
def Complies (scene : Scene (Rpc ζ × τ)) (binding : Binding) (t : MessageType)
    (args : List Value) (m : Machine) : Prop :=
  ∃ rets handler m' s', Responds scene.others.1 t args m scene.others.2 rets handler m' s' ∧
    rets.map Value.kind = binding.rets ∧ Paged.Tidy (scene.others.1.page? t .far) rets

/-- The handler answered, and the reply that waits for the caller holds the results. -/
structure Replied (a b : Cap) (scene : Scene (Rpc ζ × τ)) (binding : Binding) (t : MessageType)
    (args : List Value) (m : Machine) (rets : List Value) (m' : Machine) (reply : Message)
    (scene' : Scene (Rpc ζ × τ)) : Prop where
  responds : ∃ handler s', scene'.others = (scene.others.1.handle t handler, s') ∧
    Responds scene.others.1 t args m scene.others.2 rets handler m' s'
  kinds : rets.map Value.kind = binding.rets
  leaves : Leaves a b m m'
  grows : m'.memory.Grows scene'.machine.memory
  slots : scene'.machine.kernel.nextSlot = m'.kernel.nextSlot
  serves : Serves a b scene (.ok (.handled t)) scene'
  ready : Ready a b scene' [reply.letter] []
  holding : Paged.Holding t (scene.others.1.page? t .far) rets t.responseTag reply
    scene'.machine.memory

variable {atA : List Letter} {first : ζ} {now : Moment ζ τ}

theorem Takes.unhandled (takes : Takes a b scene binding t args m)
    (across : scene.others.1.transport = .endpoint (.joining b a)) (duplex : Duplex m a b [] [])
    (missing : scene.others.1.handlers.get? t = none) :
    ¬ Complies scene binding t args m ∧ Silent a b scene := by
  refine ⟨?_, .inr ⟨.error (.noHandler t), ⟨m, scene.others⟩, ?_, across, duplex⟩⟩
  · rintro ⟨rets, handler, m', s', ⟨first, turns, some, -⟩, -, -⟩
    cases missing.symm.trans some
  · intro ep home peer
    exact ⟨[], Task.settle_failed ((takes ep home peer).trans
      (Task.bind_error (answer_none _ missing)))⟩

/-- A handler that stops gives no reply. -/
theorem Takes.stopped {stop : Stop} (takes : Takes a b scene binding t args m)
    (across : scene.others.1.transport = .endpoint (.joining b a))
    (handled : scene.others.1.handlers.get? t = some first)
    (ran : Handler.respond args ⟨first, ⟨m, scene.others.2⟩, []⟩ = .error stop now)
    (leaves : ∀ e, stop = .failed e → Leaves a b m now.scene.machine) :
    ¬ Complies scene binding t args m ∧ Silent a b scene := by
  constructor
  · rintro ⟨rets, handler, m', s', ⟨other, turns, some, ok⟩, -, -⟩
    obtain rfl := Option.some.inj (handled.symm.trans some)
    cases ran.symm.trans ok
  · cases stop with
    | failed e =>
        refine .inr ⟨.error e,
          ⟨now.scene.machine, (scene.others.1.handle t now.self, now.scene.others)⟩, ?_,
          across, (leaves e rfl).duplex⟩
        intro ep home peer
        exact ⟨now.turns, Task.settle_failed ((takes ep home peer).trans
          (Task.bind_error (answer_error _ handled ran)))⟩
    | halted h =>
        refine .inl fun ep home peer => ⟨h, ?_⟩
        exact ⟨_, (takes ep home peer).trans (Task.bind_error (answer_error _ handled ran))⟩

/-- A handler that returns gives a reply if what it returns will do. -/
theorem Takes.returned (takes : Takes a b scene binding t args m)
    (across : scene.others.1.transport = .endpoint (.joining b a))
    (simple : Binding.fits binding.rets = true)
    (mapped : Mapped m.memory (scene.others.1.page? t .far))
    (handled : scene.others.1.handlers.get? t = some first)
    (ran : Handler.respond args ⟨first, ⟨m, scene.others.2⟩, []⟩ = .ok rets now)
    (leaves : Leaves a b m now.scene.machine) :
    (∃ m' reply scene', Replied a b scene binding t args m rets m' reply scene') ∨
      ¬ Complies scene binding t args m ∧ Silent a b scene := by
  obtain ⟨memory, grows, ⟨reply, right, holding, sent⟩ | ⟨never, e, refused⟩⟩ :=
    finish_cases (scene.others.1.handle t now.self) now.scene.others leaves.duplex
      (mapped.grows leaves.grows) binding.rets rets (.handled t)
  · refine .inl ⟨now.scene.machine, reply,
      ⟨({ now.scene.machine with memory } : Machine).posted a [reply.letter] SendFlags.standard,
        (scene.others.1.handle t now.self, now.scene.others)⟩, ?_⟩
    have calm : Duplex { now.scene.machine with memory } b a [] [] :=
      leaves.duplex.symm.congr rfl rfl rfl
    exact {
      responds := ⟨now.self, now.scene.others, rfl, first, now.turns, handled, ran⟩
      kinds := right
      leaves
      grows
      slots := rfl
      serves := fun ep home peer => ⟨now.turns, Task.settle_ok ((takes ep home peer).trans
        ((Task.bind_ok (answer_ok { scene.others.1 with transport := .endpoint ep }
          handled ran)).trans (sent ep now.turns peer)))⟩
      ready := ⟨across, (calm.posted _ _).symm⟩
      holding }
  · refine .inr ⟨?_, .inr ⟨.error e, ⟨{ now.scene.machine with memory },
      (scene.others.1.handle t now.self, now.scene.others)⟩, ?_, across,
      leaves.duplex.congr rfl rfl rfl⟩⟩
    · rintro ⟨rets', handler, m', s', ⟨other, turns, some, ok⟩, right, tidy⟩
      obtain rfl := Option.some.inj (handled.symm.trans some)
      obtain ⟨rfl, rfl⟩ := EStateM.Result.ok.inj (ran.symm.trans ok)
      exact never ⟨right, tidy.fits (right ▸ simple) _⟩
    · intro ep home peer
      exact ⟨now.turns, Task.settle_failed ((takes ep home peer).trans
        ((Task.bind_ok (answer_ok { scene.others.1 with transport := .endpoint ep }
          handled ran)).trans (refused ep now.turns peer)))⟩

/-- A request is answered exactly if its handler answers as it should. -/
theorem serves_request (discreet : Discreet a b ζ τ)
    (ready : Ready a b scene [] [request.letter])
    (known : scene.others.1.binding? t = some binding) (simple : binding.isSimple = true)
    (notSetup : t ≠ setupPage) (notInitiate : t ≠ initiate)
    (asks : MessageType.isResponse t.code = false) (kinds : args.map Value.kind = binding.args)
    (holding : Paged.Holding t (scene.others.1.page? t .far) args t.code request
      scene.machine.memory)
    (mapped : Mapped scene.machine.memory (scene.others.1.page? t .far)) :
    ∃ m, Duplex m a b [] [] ∧ scene.machine.Spends m (Paged.capsOf args) ∧
      ((∃ rets m' reply scene', Replied a b scene binding t args m rets m' reply scene') ∨
        (scene.machine.Room (Paged.capsOf args) → ¬ Complies scene binding t args m) ∧
          Silent a b scene) := by
  rw [Binding.isSimple, Bool.and_eq_true] at simple
  have costs : request.cap.isSome → Paged.capsOf args = 1 := holding.costs (kinds ▸ simple.1)
  obtain ⟨m, duplex, spends, served | ⟨full, silent⟩⟩ :=
    serveOne_request ready holding.whole holding.tag asks known costs
  · refine ⟨m, duplex, spends, ?_⟩
    have decoded : Paged.decode t binding.args request (scene.others.1.page? t .far) m.memory =
        .ok (.ok args) := by
      rw [spends.memory, ← kinds]
      exact holding.reads
    have takes : Takes a b scene binding t args m := fun ep home peer =>
      (served ep home peer).trans (serveRequest_eq (decode_ok rfl decoded) notSetup notInitiate)
    cases handled : scene.others.1.handlers.get? t with
    | none =>
        obtain ⟨declines, silent⟩ := takes.unhandled ready.across duplex handled
        exact .inr ⟨fun _ => declines, silent⟩
    | some first =>
        have leaves := discreet first m scene.others.2 args duplex
        cases ran : Handler.respond args ⟨first, ⟨m, scene.others.2⟩, []⟩ with
        | error stop now =>
            rw [ran] at leaves
            obtain ⟨declines, silent⟩ := takes.stopped ready.across handled ran leaves
            exact .inr ⟨fun _ => declines, silent⟩
        | ok rets now =>
            rw [ran] at leaves
            rcases takes.returned ready.across simple.2 (spends.memory ▸ mapped) handled ran leaves
              with ⟨m', reply, scene', replied⟩ | ⟨declines, silent⟩
            · exact .inl ⟨rets, m', reply, scene', replied⟩
            · exact .inr ⟨fun _ => declines, silent⟩
  · exact ⟨m, duplex, spends, .inr ⟨fun room => absurd room full, silent⟩⟩

end Requests

/-! ### The set-up of a page -/

/-- The request that sets up a page. -/
def setupRequest (t : MessageType) (size : Nat) (frame : Cap) : Message :=
  ⟨[setupPage.code, t.code, UInt64.ofNat size, 0], some frame⟩

/-- The reply to it. -/
def setupReply : Message := ⟨[setupPage.responseTag, 0, 0, 0], none⟩

section Setup

variable {size : Nat} {frame : Cap} {view : View} {entry : Entry}

theorem whole_setupRequest :
    (setupRequest t size frame).letter.message = setupRequest t size frame := by
  simp only [setupRequest, Message.letter, Letter.message]
  rw [Letter.toList_fit_append (Nat.le_refl _)]
  rfl

theorem encode_setupRequest (page : Option View) (m : Memory) :
    Paged.encode setupPage setupPage.code
      [.word t.code, .word (UInt64.ofNat size), .cap frame] page m =
        .ok (.ok (setupRequest t size frame), m) := rfl

theorem decode_setupRequest (page : Option View) (m : Memory) :
    Paged.decode setupPage setupPageBinding.args (setupRequest t size frame) page m =
      .ok (.ok [.word t.code, .word (UInt64.ofNat size), .cap frame]) := rfl

variable (rpc : Rpc ζ) {m : Machine} {s : τ} {scene : Scene (Rpc ζ × τ)} {ep : Endpoint}

/-- The page is mapped for the calls of the peer. -/
theorem installPage_ok (across : rpc.transport = .endpoint ep) (quiet : m.Quiet)
    (known : rpc.entries.get? t = some entry) (named : m.kernel.frames.get? frame = some view)
    (enough : (UInt64.ofNat size).toNat ≤ view.bytes) (turns : List (Turn τ)) :
    installPage [.word t.code, .word (UInt64.ofNat size), .cap frame] ⟨rpc, ⟨m, s⟩, turns⟩ =
      .ok () ⟨{ rpc with entries := rpc.entries.insert t { entry with farPage := some view } },
        ⟨m, s⟩, turns⟩ := by
  have endpoint : rpc.transport.isEndpoint = true := by
    rw [across]
    rfl
  have mapped : m.callMapFrame frame = (.ok view, m) := by
    simp only [Machine.callMapFrame, quiet.nextFault, Kernel.mapFrame, named]
  unfold installPage
  simp only [Value.asWord, Value.asCap, Task.self_bind, endpoint, Bool.not_true,
    Bool.false_eq_true, if_false, Task.request, bind_assoc, Task.asking_bind, mapped, pure_bind,
    if_neg (Nat.not_lt.mpr enough), known]
  rfl

theorem finish_setup (across : rpc.transport = .endpoint ep) (duplex : Duplex m a b [] [])
    (peer : ep.peer = some a) (turns : List (Turn τ)) :
    finish setupPage [] [] (.builtin setupPage) ⟨rpc, ⟨m, s⟩, turns⟩ =
      .ok (.builtin setupPage)
        ⟨rpc, ⟨m.posted a [setupReply.letter] SendFlags.standard, s⟩, turns⟩ := by
  have encoded : (encode setupPage setupPage.responseTag [] .far : Task (Rpc ζ) τ Message)
      ⟨rpc, ⟨m, s⟩, turns⟩ = .ok setupReply ⟨rpc, ⟨m, s⟩, turns⟩ := by
    unfold encode
    rw [Task.self_bind, across]
    rfl
  have sent := transmit_ok rpc (s := s) across duplex.symm peer setupReply turns
  exact (Task.bind_ok encoded).trans (Task.bind_ok sent)

variable [Handler ζ τ]

theorem serveRequest_setup (across : rpc.transport = .endpoint ep) (duplex : Duplex m a b [] [])
    (peer : ep.peer = some a) (known : rpc.entries.get? t = some entry)
    (named : m.kernel.frames.get? frame = some view)
    (enough : (UInt64.ofNat size).toNat ≤ view.bytes) (turns : List (Turn τ)) :
    (serveRequest setupPageBinding (setupRequest t size frame) setupPage :
        Task (Rpc ζ) τ Dispatch) ⟨rpc, ⟨m, s⟩, turns⟩ =
      .ok (.builtin setupPage)
        ⟨{ rpc with entries := rpc.entries.insert t { entry with farPage := some view } },
          ⟨m.posted a [setupReply.letter] SendFlags.standard, s⟩, turns⟩ := by
  have decoded : (decode setupPage setupPageBinding.args (setupRequest t size frame) .far :
      Task (Rpc ζ) τ (List Value)) ⟨rpc, ⟨m, s⟩, turns⟩ = _ :=
    decode_ok across (decode_setupRequest _ _)
  have installed := installPage_ok rpc (s := s) across duplex.quiet known named enough turns
  have finished := finish_setup (s := s)
    { rpc with entries := rpc.entries.insert t { entry with farPage := some view } } across duplex
    peer turns
  unfold serveRequest
  rw [Task.bind_ok decoded, if_pos rfl]
  exact (Task.bind_ok installed).trans finished

/-- The request is always answered, unless no slot is left for the next capability. -/
theorem serves_setup (ready : Ready a b scene [] [(setupRequest t size frame).letter])
    (setup : scene.others.1.binding? setupPage = some setupPageBinding)
    (known : scene.others.1.entries.get? t = some entry)
    (named : scene.machine.kernel.frames.get? frame = some view)
    (enough : (UInt64.ofNat size).toNat ≤ view.bytes) :
    (∃ scene', Serves a b scene (.ok (.builtin setupPage)) scene' ∧
        Ready a b scene' [setupReply.letter] [] ∧ scene.machine.Spends scene'.machine 1 ∧
        scene'.others = ({ scene.others.1 with
          entries := scene.others.1.entries.insert t { entry with farPage := some view } },
          scene.others.2)) ∨
      ¬ scene.machine.Room 1 ∧ Silent a b scene := by
  obtain ⟨m, duplex, spends, served | refused⟩ :=
    serveOne_request ready whole_setupRequest rfl rfl setup fun _ => rfl
  · left
    refine ⟨⟨m.posted a [setupReply.letter] SendFlags.standard, ({ scene.others.1 with
      entries := scene.others.1.entries.insert t { entry with farPage := some view } },
      scene.others.2)⟩, ?_, ?_, ?_, rfl⟩
    · intro ep home peer
      refine ⟨[], Task.settle_ok ((served ep home peer).trans ?_)⟩
      exact serveRequest_setup { scene.others.1 with transport := .endpoint ep } rfl duplex peer
        known (spends.frames ▸ named) enough []
    · exact ⟨ready.across, (duplex.symm.posted _ _).symm⟩
    · exact (spends.trans Machine.spends_posted).mono (Nat.le_refl 1)
  · exact .inr refused

end Setup

end Rpc

end Conduit

/-
# Serving while the other waits

Two parties share a channel. While one waits, the other attends to its messages: in each
turn it dispatches any number of times, with or without asking for a notification first,
and whatever fails is left at that (`attend`). If no message waits for it, nothing
happens. If one does, the first dispatch serves it and the others find nothing more, so
what a turn does is what serving that one message does (`attend_serves`).

`await_served` and what follows say what the waiting party sees of this.
-/

import Conduit.Call.Rpc
import Conduit.Proofs.Call.Duplex
import Conduit.Proofs.Task.Waiting

namespace Conduit

namespace Rpc

variable {η ζ σ τ α : Type}

/-! ### The transport of a party -/

theorem onTransport_ok (rpc : Rpc η) {t t' : Transport} {task : Task Transport σ α} {a : α}
    {scene scene' : Scene σ} {turns turns' : List (Turn σ)} (across : rpc.transport = t)
    (ran : task ⟨t, scene, turns⟩ = .ok a ⟨t', scene', turns'⟩) :
    onTransport task ⟨rpc, scene, turns⟩ =
      .ok a ⟨{ rpc with transport := t' }, scene', turns'⟩ := by
  simp only [onTransport, Task.within, across, ran]

theorem onTransport_still (rpc : Rpc η) {t : Transport} {task : Task Transport σ α} {a : α}
    {scene scene' : Scene σ} {turns turns' : List (Turn σ)} (across : rpc.transport = t)
    (ran : task ⟨t, scene, turns⟩ = .ok a ⟨t, scene', turns'⟩) :
    onTransport task ⟨rpc, scene, turns⟩ = .ok a ⟨rpc, scene', turns'⟩ := by
  subst across
  exact onTransport_ok rpc rfl ran

theorem onTransport_refused (rpc : Rpc η) {t : Transport} {task : Task Transport σ α}
    {stop : Stop} {scene scene' : Scene σ} {turns turns' : List (Turn σ)}
    (across : rpc.transport = t)
    (ran : task ⟨t, scene, turns⟩ = .error stop ⟨t, scene', turns'⟩) :
    onTransport task ⟨rpc, scene, turns⟩ = .error stop ⟨rpc, scene', turns'⟩ := by
  subst across
  simp only [onTransport, Task.within, ran]

/-! ### Attending to messages -/

/-- How a party attends to its messages. -/
inductive Act where
  /-- It serves a message if it was notified of one. -/
  | pending
  /-- It serves a message if there is one. -/
  | message
  deriving DecidableEq

/-- The dispatch that is made. -/
def Act.task [Handler η σ] : Act → Task (Rpc η) σ Dispatch
  | pending => dispatchPending
  | message => onMessage

/-- The other party dispatches as often as it is told. A dispatch that fails ends nothing. -/
def attend [Handler ζ τ] : List Act → Turn (Rpc ζ × τ)
  | [] => fun scene => .ok () scene
  | act :: acts => fun scene =>
      match act.task ⟨scene.others.1, ⟨scene.machine, scene.others.2⟩, []⟩ with
      | .ok _ now => attend acts ⟨now.scene.machine, (now.self, now.scene.others)⟩
      | .error (.failed _) now => attend acts ⟨now.scene.machine, (now.self, now.scene.others)⟩
      | .error (.halted h) now => .error h ⟨now.scene.machine, (now.self, now.scene.others)⟩

/-- The other party serves one message, whether or not it was notified, and this comes of
it. -/
def Serves [Handler ζ τ] (a b : Cap) (scene : Scene (Rpc ζ × τ)) (outcome : Except Error Dispatch)
    (scene' : Scene (Rpc ζ × τ)) : Prop :=
  ∀ ep : Endpoint, ep.home = b → ep.peer = some a → ∃ turns,
    Task.settle serveOne ⟨{ scene.others.1 with transport := .endpoint ep },
        ⟨scene.machine, scene.others.2⟩, []⟩ =
      .ok outcome ⟨{ scene'.others.1 with transport := .endpoint ep },
        ⟨scene'.machine, scene'.others.2⟩, turns⟩

/-- Serving the message ends everything. -/
def Crashes [Handler ζ τ] (a b : Cap) (scene : Scene (Rpc ζ × τ)) : Prop :=
  ∀ ep : Endpoint, ep.home = b → ep.peer = some a → ∃ h now,
    serveOne ⟨{ scene.others.1 with transport := .endpoint ep },
      ⟨scene.machine, scene.others.2⟩, []⟩ = .error (.halted h) now

/-- The other party is at its end of the channel, where these letters wait. -/
structure Ready (a b : Cap) (scene : Scene (Rpc ζ × τ)) (atA atB : List Letter) : Prop where
  across : scene.others.1.transport = .endpoint (.joining b a)
  duplex : Duplex scene.machine a b atA atB

variable {a b : Cap} {scene scene' : Scene (Rpc ζ × τ)} {atA atA' atB : List Letter}
  {outcome : Except Error Dispatch} {letter : Letter} {act : Act} {acts : List Act}

theorem Ready.self_eq (ready : Ready a b scene atA atB) :
    ({ scene.others.1 with transport := .endpoint (.joining b a) } : Rpc ζ) = scene.others.1 := by
  rw [← ready.across]

variable [Handler ζ τ]

theorem act_idle (ready : Ready a b scene atA []) (act : Act) :
    act.task ⟨scene.others.1, ⟨scene.machine, scene.others.2⟩, []⟩ =
      .ok .idle ⟨scene.others.1, ⟨scene.machine, scene.others.2⟩, []⟩ := by
  have duplex := ready.duplex.symm
  have empty : onTransport Transport.receive
      ⟨scene.others.1, ⟨scene.machine, scene.others.2⟩, []⟩ = _ :=
    onTransport_still _ ready.across (duplex.receive_nil scene.others.2 [] rfl)
  have armed : onTransport Transport.rearm
      ⟨scene.others.1, ⟨scene.machine, scene.others.2⟩, []⟩ = _ :=
    onTransport_still _ ready.across (duplex.rearm scene.others.2 [] _)
  have event : onTransport Transport.takeEvent
      ⟨scene.others.1, ⟨scene.machine, scene.others.2⟩, []⟩ = _ :=
    onTransport_still _ ready.across (duplex.takeEvent_nil scene.others.2 [] rfl)
  cases act with
  | pending =>
      change dispatchPending _ = _
      unfold dispatchPending
      rw [Task.bind_ok event]
      rfl
  | message =>
      have served : (serveOne : Task (Rpc ζ) τ Dispatch)
          ⟨scene.others.1, ⟨scene.machine, scene.others.2⟩, []⟩ =
            .ok .idle ⟨scene.others.1, ⟨scene.machine, scene.others.2⟩, []⟩ := by
        unfold serveOne
        rw [Task.bind_ok empty]
        rfl
      change onMessage _ = _
      unfold onMessage
      rw [Task.bind_ok (Task.settle_ok served), Task.bind_ok (Task.settle_ok armed)]
      rfl

/-- Where no message waits, nothing happens. -/
theorem attend_idle (ready : Ready a b scene atA []) (acts : List Act) :
    attend acts scene = .ok () scene := by
  induction acts with
  | nil => rfl
  | cons act acts ih =>
      unfold attend
      rw [act_idle ready act]
      exact ih

/-- A message that waits is served by the first dispatch, of whichever kind. -/
theorem onMessage_serves (serves : Serves a b scene outcome scene')
    (ready' : Ready a b scene' atA []) (ep : Endpoint) (home : ep.home = b)
    (peer : ep.peer = some a) : ∃ turns,
      onMessage ⟨{ scene.others.1 with transport := .endpoint ep },
          ⟨scene.machine, scene.others.2⟩, []⟩ =
        (Task.ofExcept outcome : Task (Rpc ζ) τ Dispatch)
          ⟨scene'.others.1, ⟨scene'.machine, scene'.others.2⟩, turns⟩ := by
  obtain ⟨turns, served⟩ := serves ep home peer
  have joined : ({ ep with armed := true } : Endpoint) = .joining b a := by
    rw [Endpoint.joining, ← home, ← peer]
  have armed := onTransport_ok { scene'.others.1 with transport := .endpoint ep } rfl
    (ready'.duplex.symm.rearm scene'.others.2 turns ep)
  rw [joined, ready'.self_eq] at armed
  refine ⟨turns, ?_⟩
  unfold onMessage
  rw [Task.bind_ok served, Task.bind_ok (Task.settle_ok armed)]

theorem act_serves (ready : Ready a b scene atA (letter :: atB))
    (serves : Serves a b scene outcome scene') (ready' : Ready a b scene' atA' [])
    (act : Act) : ∃ turns,
      act.task ⟨scene.others.1, ⟨scene.machine, scene.others.2⟩, []⟩ =
        (Task.ofExcept outcome : Task (Rpc ζ) τ Dispatch)
          ⟨scene'.others.1, ⟨scene'.machine, scene'.others.2⟩, turns⟩ := by
  cases act with
  | pending =>
      have event := onTransport_ok _ ready.across
        (ready.duplex.symm.takeEvent_cons scene.others.2 [] rfl rfl)
      change ∃ turns, dispatchPending _ = _
      unfold dispatchPending
      rw [Task.bind_ok event]
      exact onMessage_serves serves ready' _ rfl rfl
  | message =>
      have served := onMessage_serves serves ready' (.joining b a) rfl rfl
      rw [ready.self_eq] at served
      exact served

/-- A turn in which the other party dispatches serves the message that waits. -/
theorem attend_serves (ready : Ready a b scene atA (letter :: atB))
    (serves : Serves a b scene outcome scene') (ready' : Ready a b scene' atA' [])
    (act : Act) (acts : List Act) : attend (act :: acts) scene = .ok () scene' := by
  obtain ⟨turns, ran⟩ := act_serves ready serves ready' act
  unfold attend
  rw [ran]
  cases outcome with
  | ok dispatch => exact attend_idle ready' acts
  | error e => exact attend_idle ready' acts

theorem attend_crashes (ready : Ready a b scene atA (letter :: atB)) (crashes : Crashes a b scene)
    (act : Act) (acts : List Act) : ∃ h scene', attend (act :: acts) scene = .error h scene' := by
  have crashed : ∀ ep : Endpoint, ep.home = b → ep.peer = some a → ∃ h now,
      onMessage ⟨{ scene.others.1 with transport := .endpoint ep },
        ⟨scene.machine, scene.others.2⟩, []⟩ = .error (.halted h) now := by
    intro ep home peer
    obtain ⟨h, now, ran⟩ := crashes ep home peer
    have settled : Task.settle serveOne ⟨{ scene.others.1 with transport := .endpoint ep },
        ⟨scene.machine, scene.others.2⟩, []⟩ = .error (.halted h) now := by
      simp only [Task.settle, ran]
    refine ⟨h, now, ?_⟩
    unfold onMessage
    rw [Task.bind_error settled]
  have ran : ∃ h now, act.task ⟨scene.others.1, ⟨scene.machine, scene.others.2⟩, []⟩ =
      .error (.halted h) now := by
    cases act with
    | pending =>
        have event := onTransport_ok _ ready.across
          (ready.duplex.symm.takeEvent_cons scene.others.2 [] rfl rfl)
        change ∃ h now, dispatchPending _ = _
        unfold dispatchPending
        rw [Task.bind_ok event]
        exact crashed _ rfl rfl
    | message =>
        have crashed := crashed (.joining b a) rfl rfl
        rw [ready.self_eq] at crashed
        exact crashed
  obtain ⟨h, now, ran⟩ := ran
  unfold attend
  rw [ran]
  exact ⟨h, _, rfl⟩

/-! ### Waiting for the reply -/

/-- The number of visits in which the other party dispatches at all. -/
def busy (visits : List (List Act)) : Nat := visits.countP (!·.isEmpty)

/-- The task ended everything. -/
def Halted {δ : Type} (result : EStateM.Result Stop (Moment δ σ) α) : Prop :=
  ∃ h now, result = .error (.halted h) now

theorem halted_bind {δ σ α β : Type} {task : Task δ σ α} {next : α → Task δ σ β} {now : Moment δ σ}
    (halted : Halted (task now)) : Halted ((task >>= next) now) := by
  obtain ⟨h, now', ran⟩ := halted
  exact ⟨h, now', Task.bind_error ran⟩

/-- A wait whose polls are vain goes on to the first visit in which the other party does
anything at all, if there is one. -/
theorem await_busy {δ σ α : Type} (turn : List Act → Turn σ) {poll : Task δ σ (Option α)} {d : δ}
    {scene : Scene σ} (still : ∀ scene, turn [] scene = .ok () scene)
    (vain : ∀ turns, poll ⟨d, scene, turns⟩ = .ok none ⟨d, scene, turns⟩)
    (visits : List (List Act)) :
    busy visits = 0 ∧ Halted (Task.await poll ⟨d, scene, visits.map turn⟩) ∨
      ∃ act acts later, busy later + 1 = busy visits ∧
        Task.await poll ⟨d, scene, visits.map turn⟩ =
          Task.await poll ⟨d, scene, turn (act :: acts) :: later.map turn⟩ := by
  induction visits with
  | nil => exact .inl ⟨rfl, _, _, Task.await_none_stalled (vain _) rfl⟩
  | cons visit visits ih =>
      cases visit with
      | nil =>
          have passed : Task.await poll ⟨d, scene, ([] :: visits).map turn⟩ = _ :=
            Task.await_none (vain _) rfl rfl (still scene)
          rw [passed]
          exact ih
      | cons act acts =>
          refine .inr ⟨act, acts, visits, ?_, rfl⟩
          rw [busy, busy, List.countP_cons_of_pos rfl]

/-- Where polls are vain and stay so whatever the turns do, the wait ends everything. -/
theorem await_hopeless {δ σ α : Type} {poll : Task δ σ (Option α)} {d : δ} {scene : Scene σ}
    {turns : List (Turn σ)} (hopeless : Scene σ → Prop)
    (vain : ∀ scene turns, hopeless scene →
      poll ⟨d, scene, turns⟩ = .ok none ⟨d, scene, turns⟩)
    (kept : ∀ turn ∈ turns, ∀ scene, hopeless scene →
      ∃ scene', turn scene = .ok () scene' ∧ hopeless scene')
    (start : hopeless scene) : Halted (Task.await poll ⟨d, scene, turns⟩) := by
  induction turns generalizing scene with
  | nil => exact ⟨_, _, Task.await_none_stalled (vain _ _ start) rfl⟩
  | cons turn turns ih =>
      obtain ⟨scene', passed, still⟩ := kept turn List.mem_cons_self scene start
      have again : Task.await poll ⟨d, scene, turn :: turns⟩ = _ :=
        Task.await_none (vain _ _ start) rfl rfl passed
      rw [again]
      exact ih (fun turn mem => kept turn (List.mem_cons_of_mem _ mem)) still

variable (rpc : Rpc η) {visits : List (List Act)}

omit [Handler ζ τ] in
theorem pollReply_nil (across : rpc.transport = .endpoint (.joining a b))
    (duplex : Duplex scene.machine a b [] atB) (turns : List (Turn (Rpc ζ × τ))) :
    pollReply ⟨rpc, scene, turns⟩ = .ok none ⟨rpc, scene, turns⟩ := by
  have can := onTransport_still _ across (duplex.canReceive scene.others turns rfl)
  unfold pollReply
  rw [Task.bind_ok can]
  rfl

omit [Handler ζ τ] in
theorem pollReply_cons (across : rpc.transport = .endpoint (.joining a b))
    (ready : Ready a b scene (letter :: atA) atB) {slots : Nat}
    (costs : letter.cap.isSome → slots = 1) (turns : List (Turn (Rpc ζ × τ))) :
    ∃ m, Duplex m a b atA atB ∧ scene.machine.Spends m slots ∧
      (pollReply ⟨rpc, scene, turns⟩ =
          .ok (some letter.message) ⟨rpc, ⟨m, scene.others⟩, turns⟩ ∨
        ¬ scene.machine.Room slots ∧ ∃ e, pollReply ⟨rpc, scene, turns⟩ =
          .error (.failed e) ⟨{ rpc with awaiting := none }, ⟨m, scene.others⟩, turns⟩) := by
  have can := onTransport_still _ across (ready.duplex.canReceive scene.others turns rfl)
  obtain ⟨m, duplex, spends, received | ⟨full, e, refused⟩⟩ :=
    ready.duplex.receive_cons costs
  · refine ⟨m, duplex, spends, .inl ?_⟩
    have taken := onTransport_still _ across (received _ _ scene.others turns rfl)
    unfold pollReply
    rw [Task.bind_ok can]
    simp only [List.isEmpty_cons, Bool.not_false, if_true]
    rw [Task.bind_ok (Task.settle_ok taken)]
    rfl
  · refine ⟨m, duplex, spends, .inr ⟨full, e, ?_⟩⟩
    have lost := onTransport_refused _ across (refused _ _ scene.others turns rfl)
    unfold pollReply
    rw [Task.bind_ok can]
    simp only [List.isEmpty_cons, Bool.not_false, if_true]
    rw [Task.bind_ok (Task.settle_failed lost)]
    rfl

/-- While nobody dispatches, no reply comes. -/
theorem await_unattended (across : rpc.transport = .endpoint (.joining a b))
    (ready : Ready a b scene [] atB) (idle : busy visits = 0) :
    Halted (Task.await pollReply ⟨rpc, scene, visits.map attend⟩) := by
  rcases await_busy attend (fun _ => rfl) (pollReply_nil rpc across ready.duplex) visits with
    ⟨-, halted⟩ | ⟨act, acts, later, fewer, -⟩
  · exact halted
  · exact absurd (fewer.trans idle) (Nat.succ_ne_zero _)

/-- Where nothing waits, no reply comes. -/
theorem await_idle (across : rpc.transport = .endpoint (.joining a b))
    (ready : Ready a b scene [] []) (visits : List (List Act)) :
    Halted (Task.await pollReply ⟨rpc, scene, visits.map attend⟩) := by
  apply await_hopeless (Ready a b · [] [])
  · exact fun _ turns ready => pollReply_nil rpc across ready.duplex turns
  · intro turn mem scene ready
    obtain ⟨visit, -, rfl⟩ := List.mem_map.mp mem
    exact ⟨scene, attend_idle ready visit, ready⟩
  · exact ready

/-- The message that waits for the other party is served in its first visit. -/
theorem await_served (across : rpc.transport = .endpoint (.joining a b))
    (ready : Ready a b scene [] [letter]) (serves : Serves a b scene outcome scene')
    (ready' : Ready a b scene' atA []) (attended : 0 < busy visits) :
    ∃ later, busy later + 1 = busy visits ∧
      Task.await pollReply ⟨rpc, scene, visits.map attend⟩ =
        Task.await pollReply ⟨rpc, scene', later.map attend⟩ := by
  have vain := pollReply_nil rpc across ready.duplex
  rcases await_busy attend (fun _ => rfl) vain visits with ⟨idle, -⟩ | ⟨act, acts, later, fewer, same⟩
  · exact absurd idle (Nat.ne_of_gt attended)
  · exact ⟨later, fewer, same.trans
      (Task.await_none (vain _) rfl rfl (attend_serves ready serves ready' act acts))⟩

theorem await_crashes (across : rpc.transport = .endpoint (.joining a b))
    (ready : Ready a b scene [] [letter]) (crashes : Crashes a b scene)
    (visits : List (List Act)) :
    Halted (Task.await pollReply ⟨rpc, scene, visits.map attend⟩) := by
  have vain := pollReply_nil rpc across ready.duplex
  rcases await_busy attend (fun _ => rfl) vain visits with ⟨-, halted⟩ | ⟨act, acts, later, -, same⟩
  · exact halted
  · obtain ⟨h, scene', crashed⟩ := attend_crashes ready crashes act acts
    exact ⟨h, _, same.trans (Task.await_none_halted (vain _) rfl crashed)⟩

/-- Serving the message gives no reply. -/
def Silent (a b : Cap) (scene : Scene (Rpc ζ × τ)) : Prop :=
  Crashes a b scene ∨ ∃ outcome scene', Serves a b scene outcome scene' ∧ Ready a b scene' [] []

theorem await_silent (across : rpc.transport = .endpoint (.joining a b))
    (ready : Ready a b scene [] [letter]) (silent : Silent a b scene) (visits : List (List Act)) :
    Halted (Task.await pollReply ⟨rpc, scene, visits.map attend⟩) := by
  rcases silent with crashes | ⟨outcome, scene', serves, ready'⟩
  · exact await_crashes rpc across ready crashes visits
  · rcases Nat.eq_zero_or_pos (busy visits) with idle | attended
    · exact await_unattended rpc across ready idle
    · obtain ⟨later, -, same⟩ := await_served rpc across ready serves ready' attended
      rw [same]
      exact await_idle rpc across ready' later

/-! ### One request and its reply -/

variable {t : MessageType} {request : Message}

/-- The scene once a message is sent to the other party. -/
def asked (b : Cap) (request : Message) (scene : Scene (Rpc ζ × τ)) : Scene (Rpc ζ × τ) :=
  ⟨scene.machine.posted b [request.letter] SendFlags.standard, scene.others⟩

omit [Handler ζ τ] in
theorem Ready.asked (ready : Ready a b scene [] []) (request : Message) :
    Ready a b (asked b request scene) [] [request.letter] :=
  ⟨ready.across, ready.duplex.posted _ _⟩

/-- Once the request is sent, the party waits for the reply. -/
theorem transact_sent {σ : Type} {rpc' : Rpc η} {scene scene' : Scene σ} {turns : List (Turn σ)}
    (sent : transmit request ⟨rpc, scene, turns⟩ = .ok () ⟨rpc', scene', turns⟩) :
    transact t request ⟨rpc, scene, turns⟩ =
      (do
        let reply ← Task.await pollReply
        if reply.tag ≠ t.responseTag then
          Task.fail (.unexpectedReply t.responseTag reply.tag)
        Task.modifySelf fun rpc => { rpc with awaiting := none }
        return reply : Task (Rpc η) σ Message)
        ⟨{ rpc' with awaiting := some t }, scene', turns⟩ := by
  unfold transact
  rw [Task.bind_ok sent, Task.modifySelf_bind]

omit [Handler ζ τ] in
theorem transact_eq (across : rpc.transport = .endpoint (.joining a b))
    (ready : Ready a b scene [] []) (turns : List (Turn (Rpc ζ × τ))) :
    transact t request ⟨rpc, scene, turns⟩ =
      (do
        let reply ← Task.await pollReply
        if reply.tag ≠ t.responseTag then
          Task.fail (.unexpectedReply t.responseTag reply.tag)
        Task.modifySelf fun rpc => { rpc with awaiting := none }
        return reply : Task (Rpc η) (Rpc ζ × τ) Message)
        ⟨{ rpc with awaiting := some t }, asked b request scene, turns⟩ :=
  transact_sent rpc (onTransport_still _ across
    (ready.duplex.send scene.others turns rfl request SendFlags.standard))

omit [Handler ζ τ] in
theorem transact_halted (across : rpc.transport = .endpoint (.joining a b))
    (ready : Ready a b scene [] []) {turns : List (Turn (Rpc ζ × τ))}
    (halted : Halted (Task.await pollReply
      ⟨{ rpc with awaiting := some t }, asked b request scene, turns⟩)) :
    Halted (transact t request ⟨rpc, scene, turns⟩) := by
  obtain ⟨h, now, ran⟩ := halted
  exact ⟨h, now, (transact_eq rpc across ready turns).trans (Task.bind_error ran)⟩

/-- Without a reply the caller waits for ever. -/
theorem transact_silent (across : rpc.transport = .endpoint (.joining a b))
    (ready : Ready a b scene [] []) (silent : Silent a b (asked b request scene))
    (visits : List (List Act)) :
    Halted (transact t request ⟨rpc, scene, visits.map attend⟩) :=
  transact_halted rpc across ready
    (await_silent { rpc with awaiting := some t } across (ready.asked request) silent visits)

/-- The reply is returned once the other party dispatches, unless it carries a capability
and no slot is left. Either way nothing is owed any more. -/
theorem transact_replied (across : rpc.transport = .endpoint (.joining a b))
    (unmarked : rpc.awaiting = none) (ready : Ready a b scene [] [])
    (serves : Serves a b (asked b request scene) outcome scene')
    (ready' : Ready a b scene' [letter] []) (tagged : letter.tag = t.responseTag) {slots : Nat}
    (costs : letter.cap.isSome → slots = 1) (visits : List (List Act)) :
    (busy visits = 0 ∧ Halted (transact t request ⟨rpc, scene, visits.map attend⟩)) ∨
      ∃ later m, busy later + 1 = busy visits ∧ Duplex m a b [] [] ∧
        scene'.machine.Spends m slots ∧
        (transact t request ⟨rpc, scene, visits.map attend⟩ =
            .ok letter.message ⟨rpc, ⟨m, scene'.others⟩, later.map attend⟩ ∨
          ¬ scene'.machine.Room slots ∧ ∃ e,
            transact t request ⟨rpc, scene, visits.map attend⟩ =
              .error (.failed e) ⟨rpc, ⟨m, scene'.others⟩, later.map attend⟩) := by
  have unmarked : ({ rpc with awaiting := none } : Rpc η) = rpc := by rw [← unmarked]
  rcases Nat.eq_zero_or_pos (busy visits) with idle | attended
  · exact .inl ⟨idle, transact_halted rpc across ready
      (await_unattended _ across (ready.asked request) idle)⟩
  · obtain ⟨later, fewer, same⟩ := await_served { rpc with awaiting := some t } across
      (ready.asked request) serves ready' attended
    obtain ⟨m, duplex, spends, polled⟩ := pollReply_cons { rpc with awaiting := some t }
      across ready' costs (later.map attend)
    refine .inr ⟨later, m, fewer, duplex, spends, ?_⟩
    rw [transact_eq rpc across ready]
    rcases polled with received | ⟨full, e, refused⟩
    · left
      have tagged : ¬ letter.message.tag ≠ t.responseTag := not_not.mpr tagged
      rw [Task.bind_ok (same.trans (Task.await_ok received)), if_neg tagged]
      simp only [Task.modifySelf_bind, unmarked]
      rfl
    · refine .inr ⟨full, e, ?_⟩
      rw [Task.bind_error (same.trans (Task.await_error refused)), unmarked]

end Rpc

end Conduit

/-
# How a message is served

A message that was taken is in hand while it is served, and at the end nothing is
(`leads_treat`). A page of the peer is recorded only while the message in hand asks for it.
While a handler runs the others may act, and the handler does to the scene what the terms
let it do (`Wanders`).

Serving panics if a request that the party serves itself has fewer arguments than it takes.
That comes of a binding registered in place of the party's own.
-/

import Conduit.Proofs.Call.Conduct.Calls
import Conduit.Proofs.Call.Discipline

namespace Conduit

namespace Value

theorem eq_of_asWord {value : Value} {w : UInt64} (read : value.asWord = some w) :
    value = .word w := by
  cases value with
  | word => exact congrArg word (Option.some.inj read)
  | str => cases read
  | cap => cases read

theorem eq_of_asCap {value : Value} {c : Cap} (read : value.asCap = some c) : value = .cap c := by
  cases value with
  | cap => exact congrArg cap (Option.some.inj read)
  | word => cases read
  | str => cases read

end Value

namespace Rpc

variable {η σ α : Type}

/-- What happens while a handler runs: it does something, or the others act once. -/
inductive Roams (asides : Scene σ → Scene σ → Prop) :
    Scene σ → List (Turn σ) → Scene σ → List (Turn σ) → Prop
  | nil (scene : Scene σ) (turns : List (Turn σ)) : Roams asides scene turns scene turns
  | aside {scene mid scene' : Scene σ} {turns turns' : List (Turn σ)} (may : asides scene mid)
      (rest : Roams asides mid turns scene' turns') : Roams asides scene turns scene' turns'
  | pass {scene mid scene' : Scene σ} {turn : Turn σ} {turns turns' : List (Turn σ)}
      (passed : turn scene = .ok () mid) (rest : Roams asides mid turns scene' turns') :
      Roams asides scene (turn :: turns) scene' turns'

/-- Handlers do no more than the terms let them do, however they end. -/
def Wanders (η : Type) [Handler η σ] (asides : Scene σ → Scene σ → Prop) : Prop :=
  ∀ (args : List Value) (now : Moment η σ),
    Task.Ends (Handler.respond args now)
      (fun _ inner => Roams asides now.scene now.turns inner.scene inner.turns)
      fun stop inner => (∃ e, stop = .failed e) →
        Roams asides now.scene now.turns inner.scene inner.turns

/-- A tally leaves the scene alone. -/
theorem wanders_tally (asides : Scene σ → Scene σ → Prop) : Wanders Tally asides :=
  fun _ now => .nil now.scene now.turns

theorem course_of_roams {terms : Terms σ} (phase : Phase) (rpc : Rpc η)
    {scene scene' : Scene σ} {turns turns' : List (Turn σ)}
    (roams : Roams terms.asides scene turns scene' turns') :
    Course terms (phase, ⟨rpc, scene, turns⟩) [] (phase, ⟨rpc, scene', turns'⟩) := by
  induction roams with
  | nil scene turns => exact .nil _
  | @aside scene mid _ turns _ may _ ih =>
      have first : Stride terms (phase, ⟨rpc, scene, turns⟩) [] (phase, ⟨rpc, mid, turns⟩) :=
        .aside may
      exact (Traced.single first).append ih
  | @pass scene mid _ turn turns _ passed _ ih =>
      have paused : Task.pause (⟨rpc, scene, turn :: turns⟩ : Moment (Rpc η) σ) =
          .ok () ⟨rpc, mid, turns⟩ := Task.pause_ok rfl passed
      have first : Stride terms (phase, ⟨rpc, scene, turn :: turns⟩) []
          (phase, ⟨rpc, mid, turns⟩) := .pass paused
      exact (Traced.single first).append ih

/-! ### What the party reads -/

theorem reads_of_decode [Handler η σ] {t : MessageType} {kinds : List Kind} {message : Message}
    {side : Side} {values : List Value} {now : Moment (Rpc η) σ}
    (decoded : decode t kinds message side now = .ok values now) :
    Reads now.self now.scene.machine t side kinds message values := by
  obtain ⟨_, -, -, -, reads⟩ := (goes_decode t kinds message side now).of_ok decoded
  exact reads

/-- A request that gives a type, a size and a frame asks to map the frame. -/
theorem asks_of_reads {page : Option View} {m : Memory} {kinds : List Kind}
    {message : Message} {w size : UInt64} {frame : Cap} {values : List Value}
    (tagged : message.tag = setupPage.code)
    (reads : Paged.Reads page m kinds message.words.tail message.cap
      (.word w :: .word size :: .cap frame :: values)) : Asks message ⟨w⟩ frame := by
  rcases message with ⟨_ | ⟨tag, words⟩, cap⟩
  · nomatch reads
  · cases reads with
    | word _ rest =>
        cases rest with
        | word _ rest =>
            cases rest with
            | cap _ rest =>
                exact ⟨tagged, rfl, rfl⟩

@[simp]
theorem receivedIn_append (events more : List Event) :
    receivedIn (events ++ more) = receivedIn events ++ receivedIn more :=
  List.filterMap_append

/-! ### Parts of serving -/

variable [Handler η σ] {terms : Terms σ} {now : Moment (Rpc η) σ} {request : Message}
  {binding : Binding}

/-- The arguments of a request that was taken, as they were read from it. -/
structure Opened (now : Moment (Rpc η) σ) (request : Message) (binding : Binding)
    (args : List Value) : Prop where
  bound : now.self.binding? ⟨request.tag⟩ = some binding
  read : decode ⟨request.tag⟩ binding.args request .far now = .ok args now

theorem Opened.length_eq {args : List Value} (opened : Opened now request binding args) :
    args.length = binding.args.length := by
  rw [← (reads_of_decode opened.read).kinds_eq, List.length_map]

/-- The page of the peer is recorded, or nothing is. -/
theorem leads_installPage {args : List Value} (setup : request.tag = setupPage.code)
    (opened : Opened now request binding args) :
    Leads terms (installPage args) (.serving request) now
      (fun _ events last _ => receivedIn events = [] ∧ ∃ t page, last = .mapped t page)
      fun _ events last _ => receivedIn events = [] ∧ last = .serving request := by
  unfold installPage
  split
  case h_1 type size frame rest =>
    split
    case h_1 w bytes c word extent cap =>
      refine leads_self_bind ?_
      cases across : now.self.transport with
      | slots chan => exact leads_bind (leads_fail ⟨rfl, rfl⟩)
      | endpoint ep =>
          simp only [Transport.isEndpoint, Bool.not_true, Bool.false_eq_true, if_false]
          have asks : Asks request ⟨w⟩ c := by
            have reads := reads_of_decode opened.read
            unfold Reads at reads
            rw [across] at reads
            rw [Value.eq_of_asWord word, Value.eq_of_asWord extent, Value.eq_of_asCap cap] at reads
            exact asks_of_reads setup reads
          refine leads_bind (leads_request (.map (by rw [across]; rfl) c) ?_ fun _ _ => ⟨rfl, rfl⟩)
          intro page mapped
          split
          case isTrue => exact leads_bind (leads_fail ⟨rfl, rfl⟩)
          case isFalse =>
            refine leads_self_bind ?_
            cases known : now.self.entries.get? ⟨w⟩ with
            | none => exact leads_fail ⟨rfl, rfl⟩
            | some entry =>
                have shown : (now.scene.machine.callMapFrame c).2.kernel.mapFrame c = .ok page := by
                  rw [Machine.kernel_callMapFrame]
                  exact mapFrame_of_callMapFrame mapped
                have records : Deal terms.calls terms.notices
                    ⟨.serving request, now.self, (now.scene.machine.callMapFrame c).2⟩ []
                    ⟨.mapped ⟨w⟩ page, { now.self with
                      entries := now.self.entries.insert ⟨w⟩ { entry with farPage := some page } },
                      (now.scene.machine.callMapFrame c).2⟩ :=
                  .far rfl asks shown known
                exact ⟨[], _, .single (.deal records), rfl, _, _, rfl⟩
    case h_2 => exact leads_fail ⟨rfl, rfl⟩
  case h_2 few =>
    refine leads_panic (.short opened.bound (.inl ⟨setup, ?_⟩) opened.read)
    rw [← opened.length_eq]
    rcases args with _ | ⟨a, _ | ⟨b, _ | ⟨c, rest⟩⟩⟩
    · simp
    · simp
    · simp
    · exact absurd rfl (few a b c rest)

/-- The peer is adopted, or nothing is done. -/
theorem leads_adoptPeer {args : List Value} (given : request.tag = initiate.code)
    (opened : Opened now request binding args) :
    Leads terms (adoptPeer args) (.serving request) now
      (fun _ events last _ => receivedIn events = [] ∧ last = .serving request)
      fun _ events last _ => receivedIn events = [] ∧ last = .serving request := by
  unfold adoptPeer
  split
  case h_1 =>
    have none : binding.args = [] := List.length_eq_zero_iff.mp opened.length_eq.symm
    exact leads_panic (.short opened.bound (.inr ⟨given, none⟩) opened.read)
  case h_2 arg rest =>
    cases cap : arg.asCap with
    | none => exact leads_fail ⟨rfl, rfl⟩
    | some peer =>
        refine leads_self_bind ?_
        cases across : now.self.transport with
        | slots chan => exact leads_fail ⟨rfl, rfl⟩
        | endpoint ep =>
            have carried : request.cap = some peer := by
              have reads := reads_of_decode opened.read
              unfold Reads at reads
              rw [across, Value.eq_of_asCap cap] at reads
              exact Paged.Reads.cap_eq reads List.mem_cons_self
            have adopts : Deal terms.calls terms.notices
                ⟨.serving request, now.self, now.scene.machine⟩ []
                ⟨.serving request, { now.self with transport := .endpoint { ep with peer := some peer } },
                  now.scene.machine⟩ := .adopt across rfl given carried
            exact ⟨[], _, .single (.deal adopts), rfl, rfl⟩

/-- A handler runs once, or there is none. -/
theorem leads_answer (wanders : Wanders η terms.asides) (t : MessageType) (args : List Value)
    (phase : Phase) (now : Moment (Rpc η) σ) :
    Leads terms (answer t args) phase now
      (fun _ events last _ => receivedIn events = [] ∧ last = phase)
      fun _ events last _ => receivedIn events = [] ∧ last = phase := by
  unfold answer
  refine leads_self_bind ?_
  cases known : now.self.handlers.get? t with
  | none => exact leads_fail ⟨rfl, rfl⟩
  | some handler =>
      have answers : Stride terms (phase, now) [.answered t args] (phase, now) := by
        have deal : Deal terms.calls terms.notices ⟨phase, now.self, now.scene.machine⟩
            [.answered t args] ⟨phase, now.self, now.scene.machine⟩ :=
          .answer args (by rw [known]; rfl)
        exact .deal deal
      have keeps : ∀ inner : Moment η σ,
          Roams terms.asides now.scene now.turns inner.scene inner.turns →
          Course terms (phase, now) [.answered t args]
            (phase, ⟨now.self.handle t inner.self, inner.scene, inner.turns⟩) := by
        intro inner roams
        have kept : Stride terms (phase, ⟨now.self, inner.scene, inner.turns⟩) []
            (phase, ⟨now.self.handle t inner.self, inner.scene, inner.turns⟩) := by
          have deal : Deal terms.calls terms.notices ⟨phase, now.self, inner.scene.machine⟩ []
              ⟨phase, now.self.handle t inner.self, inner.scene.machine⟩ := .handlers _ _
          exact .deal deal
        exact ((Traced.single answers).append (course_of_roams phase now.self roams)).append
          (.single kept)
      have ends := wanders args ⟨handler, now.scene, now.turns⟩
      unfold Leads
      simp only
      unfold Task.within
      cases ran : Handler.respond args ⟨handler, now.scene, now.turns⟩ with
      | ok rets inner =>
          rw [ran] at ends
          exact ⟨_, _, keeps inner ends, rfl, rfl⟩
      | error stop inner =>
          rw [ran] at ends
          cases stop with
          | failed e => exact ⟨_, _, keeps inner (ends ⟨e, rfl⟩), rfl, rfl⟩
          | halted h => exact ⟨_, _, .nil _, .handler known ran⟩

/-- The reply is sent, or nothing is. No message is taken. -/
theorem leads_finish {t : MessageType} {phase : Phase} {events : List Event} (kinds : List Kind)
    (rets : List Value) {outcome : Dispatch} (busy : outcome ≠ .idle)
    (silent : receivedIn events = [])
    (reason : ∀ (rpc : Rpc η) (reply : Message), reply.tag = t.responseTag →
      Reason terms.calls rpc phase reply .free)
    (held : ∀ rpc : Rpc η, Releasable phase rpc) (now : Moment (Rpc η) σ) :
    Leads terms (finish t kinds rets outcome) phase now
      (fun dispatch more last _ =>
        receivedIn (events ++ more) = [] ∧ dispatch ≠ .idle ∧ last = .free)
      fun _ more last now' => receivedIn (events ++ more) = [] ∧ Releasable last now'.self := by
  refine leads_bind (leads_ofExcept (fun _ _ => ?_) fun _ _ => ⟨by simpa using silent, held _⟩)
  refine leads_bind ((leads_encode t t.responseTag rets .far phase now).mono ?_ ?_)
  · rintro reply _ last mid ⟨rfl, rfl, -, tagged, -⟩
    refine leads_bind ((leads_transmit (reason mid.self reply tagged)).mono ?_ ?_)
    · rintro _ _ last now' ⟨rfl, rfl, -⟩
      exact leads_pure ⟨by rw [List.append_nil, receivedIn_append, silent]; rfl, busy, rfl⟩
    · rintro e _ last now' ⟨rfl, rfl, -⟩
      exact ⟨by simpa using silent, held _⟩
  · rintro e _ last mid ⟨rfl, rfl, -⟩
    exact ⟨by simpa using silent, held _⟩

/-- A request is served by the party itself or by a handler. -/
theorem leads_serveRequest (wanders : Wanders η terms.asides)
    (asked : MessageType.isResponse request.tag = false)
    (bound : now.self.binding? ⟨request.tag⟩ = some binding) :
    Leads terms (serveRequest binding request ⟨request.tag⟩) (.serving request) now
      (fun dispatch events last _ => receivedIn events = [] ∧ dispatch ≠ .idle ∧ last = .free)
      fun _ events last now' => receivedIn events = [] ∧ Releasable last now'.self := by
  have serving : ∀ rpc : Rpc η, Releasable (.serving request) rpc := fun _ _ _ same => by cases same
  unfold serveRequest
  refine leads_bind ((leads_decode _ binding.args request .far (.serving request) now).mono ?_ ?_)
  · rintro args events last now ⟨rfl, rfl, rfl, read⟩
    have opened : Opened now request binding args := ⟨bound, read⟩
    by_cases setup : (⟨request.tag⟩ : MessageType) = setupPage
    · rw [if_pos setup]
      have tagged : request.tag = setupPage.code := congrArg MessageType.code setup
      refine leads_bind ((leads_installPage tagged opened).mono ?_ ?_)
      · rintro _ events last mid ⟨silent, t, page, rfl⟩
        refine leads_finish binding.rets [] Dispatch.noConfusion silent ?_ ?_ mid
        · intro rpc reply replies
          exact .confirm (replies.trans (by rw [setup]))
        · intro rpc t' page' same
          cases same
      · rintro e events last mid ⟨silent, rfl⟩
        exact ⟨by simpa using silent, serving _⟩
    · rw [if_neg setup]
      have other : request.tag ≠ setupPage.code := fun tagged =>
        setup (congrArg MessageType.mk tagged)
      have replies : ∀ (rpc : Rpc η) (reply : Message),
          reply.tag = MessageType.responseTag ⟨request.tag⟩ →
          Reason terms.calls rpc (.serving request) reply .free := fun rpc reply tagged =>
        .reply asked other tagged
      by_cases given : (⟨request.tag⟩ : MessageType) = initiate
      · rw [if_pos given]
        have tagged : request.tag = initiate.code := congrArg MessageType.code given
        refine leads_bind ((leads_adoptPeer tagged opened).mono ?_ ?_)
        · rintro _ events last mid ⟨silent, rfl⟩
          exact leads_finish binding.rets [] Dispatch.noConfusion silent replies serving mid
        · rintro e events last mid ⟨silent, rfl⟩
          exact ⟨by simpa using silent, serving _⟩
      · rw [if_neg given]
        refine leads_bind ((leads_answer wanders ⟨request.tag⟩ args (.serving request) _).mono ?_ ?_)
        · rintro rets events last mid ⟨silent, rfl⟩
          exact leads_finish binding.rets rets Dispatch.noConfusion silent replies serving mid
        · rintro e events last mid ⟨silent, rfl⟩
          exact ⟨by simpa using silent, serving _⟩
  · rintro e events last mid ⟨rfl, rfl, -⟩
    exact ⟨rfl, serving _⟩

/-- A message that was taken to be served. -/
def treat (message : Message) : Task (Rpc η) σ Dispatch := do
  let rpc ← Task.self
  if MessageType.isResponse message.tag then
    if rpc.awaiting.map MessageType.responseTag = some message.tag then
      Task.setSelf { rpc with awaiting := none }
    return .strayResponse message.tag
  else
    match rpc.binding? ⟨message.tag⟩ with
    | none => Task.fail (.unknownBinding ⟨message.tag⟩)
    | some binding => serveRequest binding message ⟨message.tag⟩

/-- A reply is reported as a stray one. -/
theorem treat_reply {message : Message} (isReply : MessageType.isResponse message.tag = true)
    (now : Moment (Rpc η) σ) :
    ∃ last, treat message now = .ok (.strayResponse message.tag) last := by
  unfold treat
  simp only [Task.self_bind, if_pos isReply]
  split <;> exact ⟨_, rfl⟩

/-- A request of a type without a binding is refused. -/
theorem treat_unbound {message : Message} (asked : ¬ MessageType.isResponse message.tag = true)
    (unbound : now.self.binding? ⟨message.tag⟩ = none) :
    treat message now = .error (.failed (.unknownBinding ⟨message.tag⟩)) now := by
  unfold treat
  simp only [Task.self_bind, if_neg asked, unbound]
  rfl

/-- Any other request is served. -/
theorem treat_bound {message : Message} (asked : ¬ MessageType.isResponse message.tag = true)
    (bound : now.self.binding? ⟨message.tag⟩ = some binding) :
    treat message now = serveRequest binding message ⟨message.tag⟩ now := by
  unfold treat
  simp only [Task.self_bind, if_neg asked, bound]

/-- Whatever comes of a message, no other is taken, and nothing is in hand at the end. -/
theorem leads_treat (wanders : Wanders η terms.asides) (message : Message)
    (now : Moment (Rpc η) σ) :
    Leads terms (treat message) (.serving message) now
      (fun outcome events last _ => receivedIn events = [] ∧ outcome ≠ .idle ∧ last = .free)
      fun _ events last _ => receivedIn events = [] ∧ last = .free := by
  have serving : ∀ rpc : Rpc η, Releasable (.serving message) rpc := fun _ _ _ same => by cases same
  refine Leads.released (leads_self_bind ?_)
  split
  case isTrue =>
    split
    case isTrue owed =>
      exact leads_setSelf_bind (.unmark (.late owed))
        (leads_phase (.release (serving _)) (leads_pure ⟨rfl, Dispatch.noConfusion, rfl⟩))
    case isFalse =>
      exact leads_phase (.release (serving _)) (leads_pure ⟨rfl, Dispatch.noConfusion, rfl⟩)
  case isFalse asked =>
    cases bound : now.self.binding? ⟨message.tag⟩ with
    | none => exact leads_fail ⟨serving _, rfl, rfl⟩
    | some binding =>
        refine (leads_serveRequest wanders (Bool.eq_false_iff.mpr asked) bound).mono ?_ ?_
        · exact fun _ _ _ _ ends => ends
        · rintro e events last now' ⟨silent, held⟩
          exact ⟨held, silent, rfl⟩

theorem serveOne_eq : (serveOne : Task (Rpc η) σ Dispatch) =
    onTransport Transport.receive >>= fun
      | none => pure .idle
      | some message => treat message := by
  unfold serveOne treat
  rfl

theorem serveOne_taken {message : Message} {mid : Moment (Rpc η) σ}
    (taken : onTransport Transport.receive now = .ok (some message) mid) :
    serveOne now = treat message mid := by
  rw [serveOne_eq, Task.bind_ok taken]

/-- One message is taken and treated, or none is. -/
theorem leads_serveOne (wanders : Wanders η terms.asides) (now : Moment (Rpc η) σ) :
    Leads terms serveOne .free now (fun _ _ last _ => last = .free)
      fun _ _ last _ => last = .free := by
  rw [serveOne_eq]
  refine Leads.released (leads_bind ((leads_receive Picks.serve).mono ?_ ?_))
  · rintro (_ | message) events last mid ⟨-, ends⟩
    · exact leads_pure ends.2.1
    · rw [ends.2]
      refine (leads_treat wanders message mid).mono ?_ ?_
      · exact fun _ _ _ _ ends => ends.2.2
      · rintro e more last now' ⟨-, rfl⟩
        exact ⟨releasable_free _, rfl⟩
  · rintro e events last mid ⟨rfl, -, -⟩
    exact ⟨releasable_spoiled _, rfl⟩

/-- A notification is consumed, or there is none. -/
theorem leads_takeEvent (may : terms.notices) (phase : Phase) (now : Moment (Rpc η) σ) :
    Leads terms (onTransport Transport.takeEvent) phase now (fun _ _ last _ => last = phase)
      fun _ _ last _ => last = phase := by
  unfold Leads Transport.takeEvent
  rw [onTransport_self_bind]
  cases across : now.self.transport with
  | endpoint ep =>
      have notices : Deal terms.calls terms.notices ⟨phase, now.self, now.scene.machine⟩ []
          ⟨phase, { now.self with transport := .endpoint (ep.takeEvent now.scene.machine).2 },
            now.scene.machine⟩ := .notice may (by rw [across]; exact .event ep _)
      exact ⟨[], _, .single (.deal notices), rfl⟩
  | slots chan =>
      simp only
      rw [onTransport_onMachine]
      refine leads_onMachine ?_ fun cause panicked => .pane across (.inr (.inl panicked))
      intro rung m taken
      have notices : Deal terms.calls terms.notices ⟨phase, now.self, now.scene.machine⟩ []
          ⟨phase, { now.self with transport := .slots chan }, m⟩ :=
        .notice may (by rw [across]; exact .bell taken)
      rw [carried_eq across] at notices
      exact ⟨notices, rfl⟩

/-- The next notification is asked for, or the kernel refuses. -/
theorem leads_rearm (may : terms.notices) (phase : Phase) (now : Moment (Rpc η) σ) :
    Leads terms (onTransport Transport.rearm) phase now (fun _ _ last _ => last = phase)
      fun _ _ last _ => last = phase := by
  unfold Leads Transport.rearm
  rw [onTransport_self_bind]
  cases across : now.self.transport with
  | slots chan => exact ⟨[], _, .nil _, rfl⟩
  | endpoint ep =>
      simp only
      unfold Task.request
      rw [bind_assoc, onTransport_bind, onTransport_asking, Task.asking_bind]
      rcases answered : ep.register now.scene.machine with ⟨e | ep', m⟩
      · have refused : Deal terms.calls terms.notices ⟨phase, now.self, now.scene.machine⟩ []
            ⟨phase, { now.self with transport := .endpoint ep }, m⟩ :=
          .notice may (by rw [across]; exact .unarmed answered)
        rw [carried_eq across] at refused
        exact ⟨[], _, .single (.deal refused), rfl⟩
      · have armed : Deal terms.calls terms.notices ⟨phase, now.self, now.scene.machine⟩ []
            ⟨phase, { now.self with transport := .endpoint ep' }, m⟩ :=
          .notice may (by rw [across]; exact .armed answered)
        exact ⟨[], _, .single (.deal armed), rfl⟩

theorem leads_onMessage (wanders : Wanders η terms.asides) (may : terms.notices)
    (now : Moment (Rpc η) σ) :
    Leads terms onMessage .free now (fun _ _ last _ => last = .free)
      fun _ _ last _ => last = .free := by
  have later : ∀ (outcome : Except Error Dispatch) (mid : Moment (Rpc η) σ),
      Leads terms (do
        let _ ← Task.settle (onTransport Transport.rearm)
        Task.ofExcept outcome) .free mid (fun _ _ last _ => last = .free)
      fun _ _ last _ => last = .free := by
    intro outcome mid
    refine leads_bind (leads_settle ((leads_rearm may .free mid).mono ?_ ?_))
    · rintro _ events last now' rfl
      exact leads_ofExcept (fun _ _ => rfl) fun _ _ => rfl
    · rintro e events last now' rfl
      exact leads_ofExcept (fun _ _ => rfl) fun _ _ => rfl
  refine leads_bind (leads_settle ((leads_serveOne wanders now).mono ?_ ?_))
  · rintro dispatch events last mid rfl
    exact later (.ok dispatch) mid
  · rintro e events last mid rfl
    exact later (.error e) mid

theorem leads_dispatchPending (wanders : Wanders η terms.asides) (may : terms.notices)
    (now : Moment (Rpc η) σ) :
    Leads terms dispatchPending .free now (fun _ _ last _ => last = .free)
      fun _ _ last _ => last = .free := by
  refine leads_bind ((leads_takeEvent may .free now).mono ?_ fun _ _ _ _ ends => ends)
  rintro (_ | _) events last mid rfl
  · exact leads_pure rfl
  · exact leads_onMessage wanders may mid

end Rpc

end Conduit

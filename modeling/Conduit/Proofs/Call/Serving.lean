/-
# Serving among honest others

Whatever message a client takes and serves, and however that ends, its mark tells what
is owed afterwards: a reply it takes is the one that is owed, a request it serves leaves
the mark alone, and a letter that gives it a new peer gives it the one it has. Each part
of serving keeps `Faithful`, so serving does (`keeps_onMessage`).
-/

import Conduit.Proofs.Call.Asking
import Conduit.Proofs.Call.Reading

namespace Conduit

namespace Rpc

variable {η θ α : Type} {ch : Channel} {now : Moment (Rpc η) (Server θ)} {t : MessageType}
  {args : List Value} {letter : Letter}

/-- The mark tells what is owed, and the others are honest. -/
abbrev FaithfulAmong (ch : Channel) (now : Moment (Rpc η) (Server θ)) : Prop :=
  Task.Among (Honestly ch) (Faithful ch) now

theorem lasting_faithful (rpc : Rpc η) :
    Lasting (Honestly ch) (Faithful ch rpc : Scene (Server θ) → Prop) where
  kept _ _ faithful steps := ⟨faithful.wired, (lasting_marked _).kept _ _ faithful.marked steps⟩
  queues _ _ _ faithful same :=
    ⟨faithful.wired, (lasting_marked _).queues _ _ _ faithful.marked same⟩

/-- A task that leaves the party as it is may be looked at with the party fixed. -/
theorem FaithfulAmong.still (among : FaithfulAmong ch now) :
    Task.Among (Honestly ch) (Still now.self (Faithful ch now.self)) now :=
  ⟨⟨rfl, among.here⟩, among.lawful⟩

theorem FaithfulAmong.of_still {rpc : Rpc η}
    (among : Task.Among (Honestly ch) (Still rpc (Faithful ch rpc)) now) :
    FaithfulAmong ch now := by
  refine ⟨?_, among.lawful⟩
  rw [among.here.1]
  exact among.here.2

/-! ### The ends of the channel -/

/-- What a task of the transport leaves alone is the mark, so only the ends count. -/
theorem faithfulAmong_ends {ep : Endpoint} (among : FaithfulAmong ch now)
    (home : ep.home = ch.client) (peer : ep.peer = some ch.server) :
    FaithfulAmong ch { now with self := { now.self with transport := .endpoint ep } } :=
  ⟨⟨⟨ep, rfl, home, peer⟩, among.here.marked⟩, among.lawful⟩

theorem keeps_rearm :
    Task.Keeps (FaithfulAmong ch) (onTransport Transport.rearm : Task (Rpc η) (Server θ) Unit) := by
  intro now among
  obtain ⟨ep, across, home, peer⟩ := id among.here.wired
  unfold onTransport
  apply Task.ends_within
  unfold Transport.rearm
  rw [Task.self_bind, across]
  apply Task.ends_bind
  have start := among_transport across among.still
  rw [across] at start
  refine (Task.ends_request (lasting_faithful now.self) (fun m => Endpoint.waiting_register ep m)
    start).mono ?_ ?_
  · rintro ep' inner ⟨⟨m, armed⟩, ⟨same, faithful⟩, lawful⟩
    obtain rfl := Endpoint.register_ok armed
    have among : FaithfulAmong ch ⟨now.self, inner.scene, inner.turns⟩ := ⟨faithful, lawful⟩
    exact faithfulAmong_ends among home peer
  · rintro stop inner ⟨-, ⟨same, faithful⟩, lawful⟩
    rw [same]
    have among : FaithfulAmong ch ⟨now.self, inner.scene, inner.turns⟩ := ⟨faithful, lawful⟩
    exact faithfulAmong_ends among home peer

/-! ### Built-in calls -/

theorem keeps_installPage : Task.Keeps (FaithfulAmong ch)
    (installPage args : Task (Rpc η) (Server θ) Unit) := by
  intro now among
  rcases args with _ | ⟨type, _ | ⟨size, _ | ⟨frame, rest⟩⟩⟩
  · exact among
  · exact among
  · exact among
  unfold installPage
  simp only
  cases type.asWord with
  | none => exact among
  | some type =>
      cases size.asWord with
      | none => exact among
      | some size =>
          cases frame.asCap with
          | none => exact among
          | some frame =>
              simp only [Task.self_bind, isEndpoint_of_wired among.here.wired, Bool.not_true,
                Bool.false_eq_true, if_false]
              apply Task.ends_bind
              refine (Task.ends_request (lasting_faithful _)
                (fun m => m.waiting_callMapFrame frame) among.still).mono ?_
                fun _ _ refused => .of_still refused.2
              rintro page now ⟨-, among⟩
              have among := FaithfulAmong.of_still among
              by_cases large : size.toNat > page.bytes
              · rw [if_pos large]
                exact among
              rw [if_neg large, Task.self_bind]
              cases now.self.entries.get? ⟨type⟩ with
              | none => exact among
              | some entry => exact ⟨⟨among.here.wired, among.here.marked⟩, among.lawful⟩

/-- The peer that is adopted is the one there was. -/
theorem ends_adoptPeer (among : FaithfulAmong ch now)
    (same : ∀ cap, .cap cap ∈ args → cap = ch.server) :
    Task.Ends (adoptPeer args now) (fun _ now => FaithfulAmong ch now)
      fun _ now => FaithfulAmong ch now := by
  unfold adoptPeer
  split
  · exact among
  · rename_i arg rest
    cases arg with
    | word w => exact among
    | str s => exact among
    | cap peer =>
        have peer := same peer List.mem_cons_self
        obtain ⟨ep, across, home, -⟩ := id among.here.wired
        simp only [Value.asCap, Task.self_bind, across]
        exact ⟨⟨⟨_, rfl, home, congrArg some peer⟩, among.here.marked⟩, among.lawful⟩

/-! ### Requests -/

/-- A reply that is sent is nothing that the server owes. -/
theorem ends_finish (among : FaithfulAmong ch now) (kinds : List Kind) (rets : List Value)
    (outcome : Dispatch) :
    Task.Ends ((do
        Task.ofExcept (Value.check t kinds rets)
        let reply ← encode t t.responseTag rets .far
        transmit reply
        return outcome) now)
      (fun _ now => FaithfulAmong ch now) fun _ now => FaithfulAmong ch now := by
  obtain ⟨ep, across, -, peer⟩ := id among.here.wired
  cases Value.check t kinds rets with
  | error e => exact among
  | ok u =>
      simp only [Task.ofExcept, pure_bind]
      apply Task.ends_bind
      refine (ends_encode across (lasting_faithful _) t t.responseTag rets .far among.still).mono ?_
        fun _ _ among => .of_still among
      rintro reply now' ⟨among', memory, memory', encoded⟩
      have isReply : reply.letter.isReply = true := by
        unfold Letter.isReply
        rw [reply.tag_letter, Paged.tag_encode encoded]
        exact t.isResponse_responseTag
      apply Task.ends_bind
      refine (ends_transmit across peer (lasting_faithful _) reply ?_ among').mono
        (fun _ _ among => .of_still among) fun _ _ among => .of_still among
      exact fun m m' s faithful moved => ⟨faithful.wired, faithful.marked.send isReply moved⟩

/-- Whatever a handler does, and whoever acts while it waits, is honest. -/
def HonestHandlers (ch : Channel) (η θ : Type) [Handler η (Server θ)] : Prop :=
  ∀ (first : Scene (Server θ)) (args : List Value),
    Task.Keeps (Task.Among (Honestly ch) fun (_ : η) scene => Honestly ch first scene)
      (Handler.respond args)

variable [Handler η (Server θ)]

theorem keeps_answer (honest : HonestHandlers ch η θ) :
    Task.Keeps (FaithfulAmong ch) (answer t args : Task (Rpc η) (Server θ) (List Value)) := by
  intro now among
  unfold answer
  rw [Task.self_bind]
  cases now.self.handlers.get? t with
  | none => exact among
  | some handler =>
      have later : ∀ (handler : η) (scene : Scene (Server θ)) turns,
          Task.Among (Honestly ch) (fun _ scene => Honestly ch now.scene scene)
            ⟨handler, scene, turns⟩ →
          FaithfulAmong ch ⟨now.self.handle t handler, scene, turns⟩ := by
        rintro handler scene turns ⟨steps, lawful⟩
        have marked := (lasting_marked _).kept _ _ among.here.marked steps
        exact ⟨⟨among.here.wired, marked⟩, lawful⟩
      apply Task.ends_within
      have ends := honest now.scene args ⟨handler, now.scene, now.turns⟩ ⟨.refl, among.lawful⟩
      refine ends.mono ?_ ?_
      · exact fun rets inner among => later inner.self inner.scene inner.turns among
      · exact fun stop inner among => later inner.self inner.scene inner.turns among

/-- Serving a request leaves the mark alone. -/
theorem ends_serveRequest (honest : HonestHandlers ch η θ) (among : FaithfulAmong ch now)
    (binding : Binding) (admitted : ch.Admits letter) :
    Task.Ends (serveRequest binding letter.message ⟨letter.tag⟩ now)
      (fun _ now => FaithfulAmong ch now) fun _ now => FaithfulAmong ch now := by
  obtain ⟨ep, across, -, -⟩ := id among.here.wired
  unfold serveRequest
  apply Task.ends_bind
  refine (ends_decode across _ binding.args letter.message .far).mono ?_ ?_
  · rintro args _ ⟨rfl, decoded⟩
    by_cases setup : (⟨letter.tag⟩ : MessageType) = setupPage
    · rw [if_pos setup]
      apply Task.ends_bind
      refine (keeps_installPage _ among).mono ?_ fun _ _ among => among
      exact fun _ now among => ends_finish among binding.rets [] _
    rw [if_neg setup]
    by_cases given : (⟨letter.tag⟩ : MessageType) = initiate
    · rw [if_pos given]
      apply Task.ends_bind
      refine (ends_adoptPeer among ?_).mono ?_ fun _ _ among => among
      · exact fun cap mem =>
          admitted (congrArg MessageType.code given) cap (Paged.cap_of_decode decoded mem)
      · exact fun _ now among => ends_finish among binding.rets [] _
    · rw [if_neg given]
      apply Task.ends_bind
      refine (keeps_answer honest _ among).mono ?_ fun _ _ among => among
      exact fun rets now among => ends_finish among binding.rets rets _
  · rintro stop _ rfl
    exact among

/-! ### Messages -/

/-- What holds once a letter was taken: a reply is the one that was owed. -/
def Channel.Taken (ch : Channel) (mark : Option MessageType) (letter : Letter)
    (scene : Scene (Server θ)) : Prop :=
  ch.Admits letter ∧
    (letter.isReply = true ∧ mark.map MessageType.responseTag = some letter.tag ∧
        ch.Marked none scene ∨
      letter.isReply = false ∧ ch.Marked mark scene)

theorem lasting_taken (mark : Option MessageType) (letter : Letter) :
    Lasting (Honestly ch) (ch.Taken mark letter : Scene (Server θ) → Prop) :=
  (Lasting.const _).and (((Lasting.const _).and ((Lasting.const _).and (lasting_marked none))).or
    ((Lasting.const _).and (lasting_marked mark)))

/-- A mark that nothing is owed for does no harm. -/
theorem Channel.Marked.of_none {scene : Scene (Server θ)} (marked : ch.Marked none scene)
    (mark : Option MessageType) : ch.Marked mark scene := by
  obtain ⟨answered, guarded, clear⟩ := id marked
  cases mark with
  | none => exact marked
  | some t =>
      refine ⟨Message.letter { words := [t.code] }, answered, Message.tag_letter _, guarded, ?_⟩
      rw [clear]
      exact .settled answered

theorem Channel.Taken.marked {mark : Option MessageType} {scene : Scene (Server θ)}
    (taken : ch.Taken mark letter scene) : ch.Marked mark scene := by
  rcases taken with ⟨-, ⟨-, -, marked⟩ | ⟨-, marked⟩⟩
  · exact marked.of_none mark
  · exact marked

theorem Channel.Marked.receive {mark : Option MessageType} {m m' : Machine} {s : Server θ}
    {rest : List Letter} (marked : ch.Marked mark ⟨m, s⟩)
    (waits : m.kernel.waiting ch.client = letter :: rest)
    (moved : m'.kernel.waiting = Function.update m.kernel.waiting ch.client rest) :
    ch.Taken mark letter ⟨m', s⟩ := by
  cases mark with
  | none =>
      obtain ⟨answered, clear⟩ := marked
      obtain ⟨admitted, asks, clear⟩ := clear.receive waits moved
      exact ⟨admitted, .inr ⟨asks, answered, clear⟩⟩
  | some t =>
      obtain ⟨request, before, tagged, owes⟩ := marked
      obtain ⟨admitted, ⟨reply, answers, clear⟩ | ⟨asks, owes⟩⟩ := owes.receive waits moved
      · refine ⟨admitted, .inl ⟨reply, ?_, _, clear⟩⟩
        rw [answers, tagged]
        rfl
      · exact ⟨admitted, .inr ⟨asks, request, before, tagged, owes⟩⟩

/-- Whatever message is taken, and however serving it ends. -/
theorem keeps_serveOne (honest : HonestHandlers ch η θ) :
    Task.Keeps (FaithfulAmong ch) (serveOne : Task (Rpc η) (Server θ) Dispatch) := by
  intro now among
  obtain ⟨ep, across, home, -⟩ := id among.here.wired
  unfold serveOne
  apply Task.ends_bind
  refine (ends_take across (lasting_marked now.self.awaiting) (lasting_taken now.self.awaiting) ?_
    ⟨⟨rfl, among.here.marked⟩, among.lawful⟩).mono ?_ ?_
  · intro m m' s letter rest marked waits moved
    rw [home] at waits moved
    exact marked.receive waits moved
  · rintro (_ | message) now' received
    · exact .of_still ⟨⟨received.here.1, among.here.wired, received.here.2⟩, received.lawful⟩
    · obtain ⟨letter, rfl, ⟨same, admitted, taken⟩, lawful⟩ := received
      have tag : letter.message.tag = letter.tag := rfl
      simp only [Task.self_bind, tag]
      rcases taken with ⟨reply, owed, marked⟩ | ⟨asks, marked⟩
      · have reply : MessageType.isResponse letter.tag = true := reply
        rw [if_pos reply, same, if_pos owed]
        exact ⟨⟨among.here.wired, marked⟩, lawful⟩
      · have asks : ¬ MessageType.isResponse letter.tag = true := by
          rw [Bool.not_eq_true]
          exact asks
        rw [if_neg asks]
        have among' : FaithfulAmong ch now' :=
          .of_still ⟨⟨same, among.here.wired, marked⟩, lawful⟩
        cases now'.self.binding? ⟨letter.tag⟩ with
        | none => exact among'
        | some binding => exact ends_serveRequest honest among' binding admitted
  · rintro stop now' ⟨-, ⟨⟨same, marked⟩, lawful⟩ | ⟨letter, ⟨same, taken⟩, lawful⟩⟩
    · exact .of_still ⟨⟨same, among.here.wired, marked⟩, lawful⟩
    · exact .of_still ⟨⟨same, among.here.wired, taken.marked⟩, lawful⟩

theorem keeps_onMessage (honest : HonestHandlers ch η θ) :
    Task.Keeps (FaithfulAmong ch) (onMessage : Task (Rpc η) (Server θ) Dispatch) := by
  have later : ∀ outcome : Except Error Dispatch, Task.Keeps (FaithfulAmong ch) (do
      let _ ← Task.settle (onTransport Transport.rearm)
      Task.ofExcept outcome : Task (Rpc η) (Server θ) Dispatch) := by
    intro outcome
    refine Task.Keeps.bind keeps_rearm.settle fun _ => ?_
    cases outcome with
    | ok dispatch => exact Task.Keeps.pure dispatch
    | error e => exact Task.Keeps.fail e
  exact Task.Keeps.bind (keeps_serveOne honest).settle later

theorem keeps_dispatchPending (honest : HonestHandlers ch η θ) :
    Task.Keeps (FaithfulAmong ch) (dispatchPending : Task (Rpc η) (Server θ) Dispatch) := by
  refine Task.Keeps.bind ?_ fun event => ?_
  · intro now among
    obtain ⟨ep, across, home, peer⟩ := id among.here.wired
    obtain ⟨home', peer'⟩ := ep.takeEvent_ends now.scene.machine
    unfold onTransport
    apply Task.ends_within
    unfold Transport.takeEvent
    rw [Task.self_bind, across]
    exact faithfulAmong_ends among (home'.trans home) (peer'.trans peer)
  · cases event with
    | true => exact keeps_onMessage honest
    | false => exact Task.Keeps.pure _

end Rpc

end Conduit

/-
# Calls among honest others

A call sends its request when nothing is owed, and marks that its answer is owed. From
then on it knows that whatever reply comes first is the answer, however often it polls
in vain and whatever else it is asked for. It gives up only if the kernel refuses to
let it receive; then it takes the mark away although the answer may still come.

`ends_call` says how a call may end: with the values of the answer to its own request,
or without values. In the second case the mark still tells what is owed, unless the
call gave up.
-/

import Conduit.Proofs.Call.Codec
import Conduit.Proofs.Call.Honest

namespace Conduit

namespace Rpc

variable {η θ σ α : Type} {rely : Scene σ → Scene σ → Prop} {known sent : Scene σ → Prop}
  {taken : Letter → Scene σ → Prop} {rpc : Rpc η} {now : Moment (Rpc η) σ} {ep : Endpoint}
  {t : MessageType}

/-! ### The transport of a party -/

/-- What holds for the transport holds for the party. -/
theorem among_onTransport {transport : Transport} (across : rpc.transport = transport)
    {inner : Moment Transport σ} (among : Task.Among rely (Still transport known) inner) :
    Task.Among rely (Still rpc known)
      ⟨{ rpc with transport := inner.self }, inner.scene, inner.turns⟩ := by
  obtain ⟨⟨same, holds⟩, lawful⟩ := among
  refine ⟨⟨?_, holds⟩, lawful⟩
  rw [same, ← across]

theorem among_transport {transport : Transport} (across : rpc.transport = transport)
    (among : Task.Among rely (Still rpc known) now) : Task.Among rely (Still transport known)
      ⟨now.self.transport, now.scene, now.turns⟩ where
  here := ⟨(congrArg Rpc.transport among.here.1).trans across, among.here.2⟩
  lawful := among.lawful

theorem ends_transmit {peer : Cap} (across : rpc.transport = .endpoint ep)
    (connected : ep.peer = some peer) (lasting : Lasting rely known) (message : Message)
    (posts : ∀ m m' others, known ⟨m, others⟩ → m'.kernel.waiting = Function.update
      m.kernel.waiting peer (m.kernel.waiting peer ++ [message.letter]) → sent ⟨m', others⟩)
    (start : Task.Among rely (Still rpc known) now) :
    Task.Ends (transmit message now) (fun _ now => Task.Among rely (Still rpc sent) now)
      fun _ now => Task.Among rely (Still rpc known) now := by
  obtain rfl := start.here.1
  unfold transmit onTransport
  apply Task.ends_within
  refine (Transport.ends_send connected lasting message _ posts
    (among_transport across start)).mono ?_ ?_
  · exact fun _ inner among => among_onTransport across among
  · exact fun _ inner among => among_onTransport across among

theorem ends_take (across : rpc.transport = .endpoint ep) (lasting : Lasting rely known)
    (lastingTaken : ∀ letter, Lasting rely (taken letter))
    (takes : ∀ m m' others letter rest, known ⟨m, others⟩ →
      m.kernel.waiting ep.home = letter :: rest →
      m'.kernel.waiting = Function.update m.kernel.waiting ep.home rest →
      taken letter ⟨m', others⟩)
    (start : Task.Among rely (Still rpc known) now) :
    Task.Ends (onTransport Transport.receive now)
      (fun
        | none, now => Task.Among rely (Still rpc known) now
        | some message, now => ∃ letter : Letter, message = letter.message ∧
            Task.Among rely (Still rpc (taken letter)) now)
      fun stop now => stop.Refused ∧ (Task.Among rely (Still rpc known) now ∨
        ∃ letter, Task.Among rely (Still rpc (taken letter)) now) := by
  obtain rfl := start.here.1
  unfold onTransport
  apply Task.ends_within
  have among := among_transport across start
  refine (Transport.ends_receive lasting lastingTaken takes among).mono ?_ ?_
  · rintro (_ | message) inner received
    · exact among_onTransport across received
    · obtain ⟨letter, same, among⟩ := received
      exact ⟨letter, same, among_onTransport across among⟩
  · rintro stop inner ⟨refused, among | ⟨letter, -, among⟩⟩
    · exact ⟨refused, .inl (among_onTransport across among)⟩
    · exact ⟨refused, .inr ⟨letter, among_onTransport across among⟩⟩

theorem canReceive_ok (across : now.self.transport = .endpoint ep) :
    onTransport Transport.canReceive now = .ok (ep.canRecv now.scene.machine) now := by
  obtain ⟨rpc, scene, turns⟩ := now
  obtain ⟨transport, entries, handlers, pageSize, awaiting⟩ := rpc
  obtain rfl : transport = .endpoint ep := across
  rfl

/-- Looking for the reply once. If the kernel refuses, the mark is gone. -/
theorem ends_pollReply (across : rpc.transport = .endpoint ep) (lasting : Lasting rely known)
    (lastingTaken : ∀ letter, Lasting rely (taken letter))
    (takes : ∀ m m' others letter rest, known ⟨m, others⟩ →
      m.kernel.waiting ep.home = letter :: rest →
      m'.kernel.waiting = Function.update m.kernel.waiting ep.home rest →
      taken letter ⟨m', others⟩)
    (start : Task.Among rely (Still rpc known) now) :
    Task.Ends (pollReply now)
      (fun
        | none, now => Task.Among rely (Still rpc known) now
        | some message, now => ∃ letter : Letter, message = letter.message ∧
            Task.Among rely (Still rpc (taken letter)) now)
      fun
        | .halted _, now => Task.Among rely (Still rpc known) now ∨
            ∃ letter, Task.Among rely (Still rpc (taken letter)) now
        | .failed e, now => (∃ cause, e = Error.ofChannel cause) ∧
            (Task.Among rely (Still { rpc with awaiting := none } known) now ∨
              ∃ letter,
                Task.Among rely (Still { rpc with awaiting := none } (taken letter)) now) := by
  have across' : now.self.transport = .endpoint ep := start.here.1 ▸ across
  unfold pollReply
  rw [Task.bind_ok (canReceive_ok across')]
  cases ep.canRecv now.scene.machine with
  | false => exact start
  | true =>
      apply Task.ends_bind
      apply Task.ends_settle
      refine (ends_take across lasting lastingTaken takes start).mono ?_ ?_
      · rintro (_ | message) now received
        · exact received
        · exact received
      · rintro (e | h) now ⟨refused, among | ⟨letter, among⟩⟩
        · refine ⟨refused e rfl, .inl ⟨⟨?_, among.here.2⟩, among.lawful⟩⟩
          simp only [among.here.1]
        · refine ⟨refused e rfl, .inr ⟨letter, ⟨?_, among.here.2⟩, among.lawful⟩⟩
          simp only [among.here.1]
        · exact .inl among
        · exact .inr ⟨letter, among⟩

/-- Over a capability channel a message is written with the page of the given end. -/
theorem ends_encode (across : rpc.transport = .endpoint ep) (lasting : Lasting rely known)
    (t : MessageType) (tag : UInt64) (values : List Value) (side : Side)
    (start : Task.Among rely (Still rpc known) now) :
    Task.Ends (encode t tag values side now)
      (fun message now => Task.Among rely (Still rpc known) now ∧ ∃ memory memory',
        Paged.encode t tag values (rpc.page? t side) memory = .ok (.ok message, memory'))
      fun _ now => Task.Among rely (Still rpc known) now := by
  obtain rfl := start.here.1
  unfold encode
  rw [Task.self_bind, across]
  simp only [Task.machine_bind]
  cases encoded : Paged.encode t tag values (now.self.page? t side) now.scene.machine.memory with
  | error cause => exact start
  | ok result =>
      obtain ⟨_ | message, memory⟩ := result
      · exact start.write lasting memory
      · exact ⟨start.write lasting memory, _, _, encoded⟩

/-- Reading a message changes nothing. -/
theorem ends_decode (across : now.self.transport = .endpoint ep) (t : MessageType)
    (kinds : List Kind) (message : Message) (side : Side) :
    Task.Ends (decode t kinds message side now)
      (fun values now' => now' = now ∧ Paged.decode t kinds message (now.self.page? t side)
        now.scene.machine.memory = .ok (.ok values))
      fun _ now' => now' = now := by
  unfold decode
  rw [Task.self_bind, across]
  simp only [Task.machine_bind]
  cases decoded : Paged.decode t kinds message (now.self.page? t side) now.scene.machine.memory with
  | error cause => rfl
  | ok result =>
      cases result with
      | error e => rfl
      | ok values => exact ⟨rfl, rfl⟩

/-! ### Requests and answers -/

variable {ch : Channel} {log : List (Letter × Letter)} {request letter : Letter}
  {scene : Scene (Server θ)}

/-- The call ended because the kernel refused, and the answer may still come. -/
def Channel.GaveUp (ch : Channel) (stop : Stop) (scene : Scene (Server θ)) : Prop :=
  (∃ cause, stop = .failed (Error.ofChannel cause)) ∧ ch.Owed scene

/-- How a call may end without values: its mark tells what is owed, or it gave up. -/
def Channel.Left (ch : Channel) (stop : Stop) (now : Moment (Rpc η) (Server θ)) : Prop :=
  Faithful ch now.self now.scene ∨ ch.GaveUp stop now.scene

/-- Once a letter was received, nothing more is owed than before. -/
theorem Channel.Received.marked (received : ch.Received request log letter scene)
    (tagged : request.tag = t.code) : ch.Marked (some t) scene := by
  rcases received with ⟨-, ⟨-, -, guarded, clear⟩ | ⟨-, owes⟩⟩
  · refine ⟨request, log, tagged, guarded, ?_⟩
    rw [clear]
    exact .settled _
  · exact ⟨request, log, tagged, owes⟩

theorem Channel.Received.clear_or_owed (received : ch.Received request log letter scene) :
    (∃ answered, ch.Clear answered scene) ∨ ch.Owed scene := by
  rcases received with ⟨-, ⟨-, -, clear⟩ | ⟨-, owes⟩⟩
  · exact .inl ⟨_, clear⟩
  · exact owes.clear_or_owed

variable {now : Moment (Rpc η) (Server θ)}

theorem isEndpoint_of_wired {rpc : Rpc η} (wired : ch.Wired rpc) :
    rpc.transport.isEndpoint = true := by
  obtain ⟨ep, across, -, -⟩ := wired
  rw [across]
  rfl

/-- A party that lost its mark is owed nothing, or it gave up. -/
theorem left_of_refused {cause : ChannelError} (wired : ch.Wired now.self)
    (unmarked : now.self.awaiting = none)
    (either : (∃ answered, ch.Clear answered now.scene) ∨ ch.Owed now.scene) :
    ch.Left (.failed (Error.ofChannel cause)) now := by
  rcases either with clear | owed
  · refine .inl ⟨wired, ?_⟩
    rw [unmarked]
    exact clear
  · exact .inr ⟨⟨cause, rfl⟩, owed⟩

theorem left_of_clear (wired : ch.Wired rpc) (unmarked : rpc.awaiting = none)
    (among : Task.Among (Honestly ch) (Still rpc (ch.Clear log)) now) (stop : Stop) :
    ch.Left stop now := by
  obtain ⟨⟨same, clear⟩, lawful⟩ := among
  refine .inl ⟨same ▸ wired, ?_⟩
  rw [same, unmarked]
  exact ⟨log, clear⟩

/-- Waiting for the reply. The first reply that comes is the answer. -/
theorem ends_awaitReply (wired : ch.Wired rpc) (marked : rpc.awaiting = some t)
    (tagged : request.tag = t.code)
    (start : Task.Among (Honestly ch) (Still rpc (ch.Owes request log)) now) :
    Task.Ends (Task.await pollReply now)
      (fun reply now => ∃ letter : Letter, reply = letter.message ∧
        Task.Among (Honestly ch) (Still rpc (ch.Received request log letter)) now)
      ch.Left := by
  obtain ⟨ep, across, home, peer⟩ := id wired
  have mark : ∀ scene : Scene (Server θ), ch.Marked (some t) scene → Faithful ch rpc scene :=
    fun scene holds => ⟨wired, marked ▸ holds⟩
  have lost : ∀ {e : Error} (now : Moment (Rpc η) (Server θ)),
      (∃ cause, e = Error.ofChannel cause) → now.self = { rpc with awaiting := none } →
      (∃ answered, ch.Clear answered now.scene) ∨ ch.Owed now.scene → ch.Left (.failed e) now := by
    rintro _ now ⟨cause, rfl⟩ same either
    refine left_of_refused ?_ ?_ either
    · rw [same]
      exact wired
    · rw [same]
  have lasting : ∀ letter, Lasting (Honestly ch)
      (ch.Received request log letter : Scene (Server θ) → Prop) := fun _ => lasting_received
  refine Task.ends_await (Still rpc (ch.Owes request log)) ?_ lasting_owes.still ?_ start
  · intro now among
    refine (ends_pollReply across lasting_owes lasting
      (fun m m' s letter rest owes first moved => ?_) among).mono ?_ ?_
    · rw [home] at first moved
      exact owes.receive first moved
    · rintro (_ | reply) now received
      · exact received
      · exact received
    · rintro (e | h) now stops
      · obtain ⟨refused, among | ⟨letter, among⟩⟩ := stops
        · exact lost now refused among.here.1 among.here.2.clear_or_owed
        · exact lost now refused among.here.1 among.here.2.clear_or_owed
      · rcases stops with among | ⟨letter, among⟩
        · refine .inl ?_
          rw [among.here.1]
          exact mark _ ⟨_, _, tagged, among.here.2⟩
        · refine .inl ?_
          rw [among.here.1]
          exact mark _ (among.here.2.marked tagged)
  · rintro h now ⟨⟨same, owes⟩, lawful⟩
    refine .inl ?_
    rw [same]
    exact mark _ ⟨_, _, tagged, owes⟩

/-- The reply that a request is answered with is the answer to this request. -/
theorem ends_transact (wired : ch.Wired rpc) (unmarked : rpc.awaiting = none) {message : Message}
    (tagged : message.tag = t.code)
    (start : Task.Among (Honestly ch) (Still rpc (ch.Clear log)) now) :
    Task.Ends (transact t message now)
      (fun reply now => ∃ letter : Letter, reply = letter.message ∧
        Task.Among (Honestly ch) (Still rpc (ch.Clear (log ++ [(message.letter, letter)]))) now)
      ch.Left := by
  have tagged : message.letter.tag = t.code := message.tag_letter.trans tagged
  have marking : ch.Wired ({ rpc with awaiting := some t } : Rpc η) := wired
  obtain ⟨ep, across, home, peer⟩ := id wired
  unfold transact
  apply Task.ends_bind
  refine (ends_transmit across peer lasting_clear message
    (fun m m' s clear moved => clear.send moved) start).mono ?_ ?_
  · rintro _ now ⟨⟨same, owes⟩, lawful⟩
    have waits : Task.Among (Honestly ch)
        (Still { rpc with awaiting := some t } (ch.Owes message.letter log))
        { now with self := { now.self with awaiting := some t } } := by
      refine ⟨⟨?_, owes⟩, lawful⟩
      rw [same]
    rw [Task.modifySelf_bind]
    apply Task.ends_bind
    refine (ends_awaitReply marking rfl tagged waits).mono ?_ fun _ _ left => left
    rintro _ now ⟨letter, rfl, ⟨same, received⟩, lawful⟩
    have sameTag : letter.message.tag = letter.tag := rfl
    by_cases fits : letter.tag = t.responseTag
    · rw [sameTag, if_neg (not_not.mpr fits)]
      rcases received with ⟨-, ⟨reply, answers, clear⟩ | ⟨asks, owes⟩⟩
      · refine ⟨letter, rfl, ⟨?_, clear⟩, lawful⟩
        simp only [same, ← unmarked]
      · unfold Letter.isReply at asks
        rw [fits, MessageType.isResponse_responseTag] at asks
        cases asks
    · rw [sameTag, if_pos fits]
      refine .inl ⟨?_, ?_⟩
      · rw [same]
        exact wired
      · rw [same]
        exact received.marked tagged
  · exact fun stop now among => left_of_clear wired unmarked among stop

/-! ### Calls -/

/-- Setting up a page is a call of its own. -/
theorem ends_preparePage (wired : ch.Wired rpc) (unmarked : rpc.awaiting = none)
    (start : Task.Among (Honestly ch) (Still rpc (ch.Clear log)) now) :
    Task.Ends (preparePage t now)
      (fun _ now => ∃ rpc' request reply, ch.Wired rpc' ∧ rpc'.awaiting = none ∧
        Letter.tag request = setupPage.code ∧
        Task.Among (Honestly ch) (Still rpc' (ch.Clear (log ++ [(request, reply)]))) now)
      ch.Left := by
  unfold preparePage
  rw [Task.self_bind]
  apply Task.ends_bind
  refine (Task.ends_onMachine lasting_clear
    (fun _ _ _ ran => Machine.waiting_callAllocFrame ran) start).mono ?_
    fun stop _ among => left_of_clear wired unmarked among stop
  rintro (e | frame) now among
  · exact left_of_clear wired unmarked among _
  apply Task.ends_bind
  apply Task.ends_bind
  refine (Task.ends_request lasting_clear (fun m => m.waiting_callMapFrame frame) among).mono ?_
    fun stop _ refused => left_of_clear wired unmarked refused.2 stop
  rintro page now ⟨-, among⟩
  rw [Task.machine_bind]
  cases encoded : Paged.encode setupPage setupPage.code _ none now.scene.machine.memory with
  | error cause => exact left_of_clear wired unmarked among _
  | ok result =>
      obtain ⟨e | request, memory⟩ := result
      · exact left_of_clear wired unmarked (among.write lasting_clear memory) _
      · simp only [Task.orPanic_ok, Task.ofExcept, pure_bind, Task.setMachine_bind]
        apply Task.ends_bind
        refine (ends_transact wired unmarked (Paged.tag_encode encoded)
          (among.write lasting_clear memory)).mono ?_ fun _ _ left => left
        rintro _ now ⟨reply, rfl, ⟨rfl, clear⟩, lawful⟩
        let entries := now.self.entries.modify t ({ · with nearPage := some page })
        refine ⟨{ now.self with entries }, request.letter, reply, wired, unmarked, ?_,
          ⟨rfl, clear⟩, lawful⟩
        exact request.tag_letter.trans (Paged.tag_encode encoded)

/-- The values are those of the answer to the request of this call. Besides it, one
other request was answered at most, that of setting up a page. -/
def Fulfilled (t : MessageType) (args : List Value) (kinds : List Kind)
    (before : List (Letter × Letter)) (values : List Value)
    (now : Moment (Rpc η) (Server θ)) : Prop :=
  ∃ (setup : List (Letter × Letter)) (request : Message) (reply : Letter),
    now.scene.others.answered = before ++ setup ++ [(request.letter, reply)] ∧
    setup.length ≤ 1 ∧ (∀ pair ∈ setup, pair.1.tag = setupPage.code) ∧
    (∃ memory memory', Paged.encode t t.code args (now.self.page? t .near) memory =
      .ok (.ok request, memory')) ∧
    Paged.decode t kinds reply.message (now.self.page? t .near) now.scene.machine.memory =
      .ok (.ok values)

/-- Once what a call needs is there, it sends its request and reads the answer. -/
theorem ends_exchange {before setup : List (Letter × Letter)} (wired : ch.Wired rpc)
    (unmarked : rpc.awaiting = none) (args : List Value) (kinds : List Kind)
    (once : setup.length ≤ 1) (tags : ∀ pair ∈ setup, pair.1.tag = setupPage.code)
    (start : Task.Among (Honestly ch) (Still rpc (ch.Clear (before ++ setup))) now) :
    Task.Ends ((do
        let request ← encode t t.code args .near
        let reply ← transact t request
        decode t kinds reply .near) now)
      (fun values now => Faithful ch now.self now.scene ∧
        Fulfilled t args kinds before values now)
      ch.Left := by
  obtain ⟨ep, across, -, -⟩ := id wired
  apply Task.ends_bind
  refine (ends_encode across lasting_clear t t.code args .near start).mono ?_
    fun stop _ among => left_of_clear wired unmarked among stop
  rintro request now ⟨among, memory, memory', encoded⟩
  apply Task.ends_bind
  refine (ends_transact wired unmarked (Paged.tag_encode encoded) among).mono ?_
    fun _ _ left => left
  rintro _ now ⟨reply, rfl, among⟩
  obtain ⟨⟨same, clear⟩, lawful⟩ := id among
  have across' : now.self.transport = .endpoint ep := same ▸ across
  have faithful : Faithful ch now.self now.scene := by
    refine ⟨same ▸ wired, ?_⟩
    rw [same, unmarked]
    exact ⟨_, clear⟩
  refine (ends_decode across' t kinds reply.message .near).mono ?_ ?_
  · rintro values _ ⟨rfl, decoded⟩
    refine ⟨faithful, setup, request, reply, ?_, once, tags, ⟨memory, memory', ?_⟩, decoded⟩
    · exact congrArg Account.answered clear.2
    · rw [same]
      exact encoded
  · rintro stop _ rfl
    exact .inl faithful

/-- However a call ends: its values are those of the answer to its own request, and its
mark tells what is owed unless it gave up. -/
theorem ends_call (faithful : Faithful ch now.self now.scene)
    (lawful : ∀ turn ∈ now.turns, Turn.Follows (Honestly ch) turn) (t : MessageType)
    (args : List Value) :
    Task.Ends (call t args now)
      (fun values now' => Faithful ch now'.self now'.scene ∧ ∃ binding,
        now.self.binding? t = some binding ∧
        Fulfilled t args binding.rets now.scene.others.answered values now')
      ch.Left := by
  obtain ⟨wired, marked⟩ := id faithful
  unfold call
  rw [Task.self_bind]
  cases mark : now.self.awaiting with
  | some other =>
      have outstanding : now.self.isOutstanding = true := by rw [isOutstanding, mark]; rfl
      rw [if_pos outstanding]
      exact .inl faithful
  | none =>
      have idle : now.self.isOutstanding = false := by rw [isOutstanding, mark]; rfl
      rw [mark] at marked
      obtain ⟨log, clear⟩ := marked
      have answered : now.scene.others.answered = log := congrArg Account.answered clear.2
      have start : Task.Among (Honestly ch) (Still now.self (ch.Clear log)) now :=
        ⟨⟨rfl, clear⟩, lawful⟩
      simp only [idle, isEndpoint_of_wired wired, Bool.not_true, Bool.false_and, Bool.true_and,
        Bool.false_eq_true, if_false]
      cases bound : now.self.binding? t with
      | none => exact .inl faithful
      | some binding =>
          have called : ∀ values (now' : Moment (Rpc η) (Server θ)),
              Faithful ch now'.self now'.scene ∧
                Fulfilled t args binding.rets now.scene.others.answered values now' →
              Faithful ch now'.self now'.scene ∧ ∃ binding', some binding = some binding' ∧
                Fulfilled t args binding'.rets now.scene.others.answered values now' :=
            fun values now' both => ⟨both.1, binding, rfl, both.2⟩
          simp only
          cases checked : Value.check t binding.args args with
          | error e => exact .inl faithful
          | ok u =>
              simp only [Task.ofExcept, pure_bind]
              split
              · apply Task.ends_bind
                refine (ends_preparePage wired mark start).mono ?_ fun _ _ left => left
                rintro _ now' ⟨rpc, request, reply, wired, mark, tagged, among⟩
                refine (ends_exchange wired mark args binding.rets ?_ ?_ among).mono ?_
                  fun _ _ left => left
                · exact Nat.le_refl 1
                · intro pair mem
                  rw [List.mem_singleton.mp mem]
                  exact tagged
                · rw [← answered]
                  exact called
              · rw [← List.append_nil log] at start
                refine (ends_exchange wired mark args binding.rets ?_ ?_ start).mono ?_
                  fun _ _ left => left
                · exact Nat.zero_le 1
                · exact fun _ mem => absurd mem List.not_mem_nil
                · rw [← answered]
                  exact called

end Rpc

end Conduit

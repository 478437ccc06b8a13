/-
# Calls over shared memory from end to end

Two parties at the ends of one channel over shared memory call each other, one call after
the other, in either direction. While a call waits, the party that is called dispatches.
Whatever calls were made before, and however they ended, as long as none of them ended
everything: if the arguments of the next call are of the right kinds and fit a slot, then the
handler of the other party is run once on these very arguments, and what it returns, if it is
of the right kinds and fits a slot, is what the call returns (`inline_calls_return`). The one
message that the other party found is the request, so no page was set up; afterwards both
panes are empty and nothing is owed.

`call_cases` lists all ways in which a call may end. All but the end of everything keep the
two parties connected (`Step.connected`), which is what the induction over the earlier calls
needs.
-/

import Conduit.Proofs.Call.EndToEnd
import Conduit.Proofs.Call.Shared.Serving

namespace Conduit

namespace Rpc

namespace Shared

variable {η ζ σ τ : Type} {agreement : Agreement} {low high : View} {w w' : World η ζ τ}
  {p q : Transport} {toQ : List (List UInt64)} {words : List UInt64} {t : MessageType}
  {binding : Binding} {args rets : List Value} {request reply : Message} {m m₁ m' : Machine}
  {handler : ζ} {visits : List (List Act)}

/-! ### Waiting for the reply -/

section Waiting

variable (rpc : Rpc η)

theorem pollReply_nil {scene : Scene σ}
    (slotted : Slotted low high scene.machine.memory rpc.transport q toQ [])
    (turns : List (Turn σ)) :
    pollReply ⟨rpc, scene, turns⟩ = .ok none ⟨rpc, scene, turns⟩ := by
  have can := onTransport_still rpc rfl (slotted.symm.canReceive scene.others turns)
  unfold pollReply
  rw [Task.bind_ok can]
  rfl

theorem pollReply_cons (slotted : Slotted low high m.memory rpc.transport q toQ [words]) :
    ∃ p memory, Slotted low high memory p q toQ [] ∧ Confined low high m.memory memory ∧
      ∀ (σ : Type) (others : σ) (turns : List (Turn σ)),
        pollReply ⟨rpc, ⟨m, others⟩, turns⟩ = .ok (some { words })
          ⟨{ rpc with transport := p }, ⟨{ m with memory }, others⟩, turns⟩ := by
  obtain ⟨p, memory, slotted', confined, received⟩ := slotted.symm.receive_cons
  refine ⟨p, memory, slotted'.symm, confined.symm, fun σ others turns => ?_⟩
  have can := onTransport_still rpc rfl (slotted.symm.canReceive others turns)
  have taken := onTransport_ok rpc rfl (received σ others turns)
  unfold pollReply
  rw [Task.bind_ok can]
  simp only [List.isEmpty_cons, Bool.not_false, if_true]
  rw [Task.bind_ok (Task.settle_ok taken)]
  rfl

variable [Handler ζ τ] {scene : Scene (Callee ζ τ)} {now : Moment (Rpc ζ) τ}

/-- Once the other party dispatches, the reply is there. -/
theorem await_replied (slotted : Slotted low high scene.machine.memory rpc.transport
      scene.others.rpc.transport [request.words] [])
    (replied : Replied low high rpc.transport (turnOf scene) binding t args m rets handler m'
      reply now) (visits : List (List Act)) :
    busy visits = 0 ∧ Halted (Task.await pollReply ⟨rpc, scene, visits.map noting⟩) ∨
      ∃ later count p memory, Slotted low high memory p now.self.transport [] [] ∧
        Confined low high now.scene.machine.memory memory ∧
        Task.await pollReply ⟨rpc, scene, visits.map noting⟩ =
          .ok reply ⟨{ rpc with transport := p }, ⟨{ now.scene.machine with memory },
            ⟨now.self, now.scene.others,
              scene.others.log ++ .ok (.handled t) :: idles count⟩⟩, later⟩ := by
  have vain := pollReply_nil rpc slotted
  rcases await_busy noting (fun _ => rfl) vain visits with unattended | ⟨act, acts, later, -, same⟩
  · exact .inl unattended
  · obtain ⟨p, memory, slotted', confined, polled⟩ := pollReply_cons rpc replied.slotted
    have whole : ({ words := reply.words } : Message) = reply := by rw [← replied.holding.capless]
    have served := noting_replied slotted replied act acts
    refine .inr ⟨later.map noting, acts.length, p, memory, slotted', confined, ?_⟩
    rw [whole] at polled
    exact same.trans ((Task.await_none (vain _) rfl rfl served).trans (Task.await_ok (polled _ _ _)))

/-- Without a reply the caller waits for ever. -/
theorem await_silent (slotted : Slotted low high scene.machine.memory rpc.transport
      scene.others.rpc.transport [request.words] [])
    (silent : Silent low high rpc.transport (turnOf scene)) (visits : List (List Act)) :
    Halted (Task.await pollReply ⟨rpc, scene, visits.map noting⟩) := by
  have vain := pollReply_nil rpc slotted
  rcases await_busy noting (fun _ => rfl) vain visits with ⟨-, halted⟩ | ⟨act, acts, later, -, same⟩
  · exact halted
  · rcases noting_silent slotted silent act acts with ⟨h, scene', ended⟩ | ⟨scene', passed, idle⟩
    · exact ⟨h, _, same.trans (Task.await_none_halted (vain _) rfl ended)⟩
    · have again : _ = Task.await pollReply ⟨rpc, scene', later.map noting⟩ :=
        Task.await_none (vain (noting (act :: acts) :: later.map noting)) rfl rfl passed
      rw [same, again]
      apply await_hopeless fun scene : Scene (Callee ζ τ) =>
        Slotted low high scene.machine.memory rpc.transport scene.others.rpc.transport [] []
      · exact fun scene turns idle => pollReply_nil rpc idle turns
      · intro turn mem scene idle
        obtain ⟨visit, -, rfl⟩ := List.mem_map.mp mem
        exact ⟨_, noting_idle scene idle visit, idle⟩
      · exact idle

/-! ### One request and its reply -/

variable (callee : Callee ζ τ) {memory : Memory}

/-- Without a reply the call waits for ever. -/
theorem transact_silent (sent : Sent low high rpc m callee.rpc.transport request p memory)
    (silent : Silent low high p (turnOf ⟨{ m with memory }, callee⟩)) (visits : List (List Act)) :
    Halted (transact t request ⟨rpc, ⟨m, callee⟩, visits.map noting⟩) := by
  rw [transact_sent rpc (sent.ran (Callee ζ τ) callee (visits.map noting))]
  exact halted_bind (await_silent { rpc with transport := p, awaiting := some t } sent.slotted
    silent visits)

/-- The reply is returned once the other party dispatches, and nothing is owed any more. -/
theorem transact_replied (unmarked : rpc.awaiting = none)
    (sent : Sent low high rpc m callee.rpc.transport request p memory)
    (replied : Replied low high p (turnOf ⟨{ m with memory }, callee⟩) binding t args m₁ rets
      handler m' reply now) (visits : List (List Act)) :
    busy visits = 0 ∧ Halted (transact t request ⟨rpc, ⟨m, callee⟩, visits.map noting⟩) ∨
      ∃ later count p memory, Slotted low high memory p now.self.transport [] [] ∧
        Confined low high now.scene.machine.memory memory ∧
        transact t request ⟨rpc, ⟨m, callee⟩, visits.map noting⟩ =
          .ok reply ⟨{ rpc with transport := p }, ⟨{ now.scene.machine with memory },
            ⟨now.self, now.scene.others, callee.log ++ .ok (.handled t) :: idles count⟩⟩,
            later⟩ := by
  rw [transact_sent rpc (sent.ran (Callee ζ τ) callee (visits.map noting))]
  rcases await_replied { rpc with transport := p, awaiting := some t } sent.slotted replied visits
    with ⟨idle, halted⟩ | ⟨later, count, p', memory', slotted, confined, received⟩
  · exact .inl ⟨idle, halted_bind halted⟩
  · have tagged : ¬ reply.tag ≠ t.responseTag := not_not.mpr replied.holding.tag
    refine .inr ⟨later, count, p', memory', slotted, confined, ?_⟩
    rw [Task.bind_ok received, if_neg tagged, ← unmarked]
    rfl

end Waiting

/-! ### Two parties that are connected -/

/-- The left party runs a task while the right one dispatches. -/
def moment [Handler ζ τ] (w : World η ζ τ) (visits : List (List Act)) :
    Moment (Rpc η) (Callee ζ τ) :=
  ⟨w.left, ⟨w.machine, { rpc := w.right, rest := w.rest }⟩, visits.map noting⟩

/-- What is left of a task of the left party. -/
def after (now : Moment (Rpc η) (Callee ζ τ)) : World η ζ τ :=
  ⟨now.scene.machine, now.self, now.scene.others.rpc, now.scene.others.rest⟩

/-- The two parties know the agreed bindings and are at the two ends of a channel on which
nothing is under way. -/
structure Connected (agreement : Agreement) (low high : View) (w : World η ζ τ) : Prop where
  left : Registered agreement w.left
  right : Registered agreement w.right
  slotted : Slotted low high w.machine.memory w.left.transport w.right.transport [] []

theorem Connected.symm (connected : Connected agreement low high w) :
    Connected agreement high low w.swap :=
  ⟨connected.right, connected.left, connected.slotted.symm⟩

/-- Where a party is, and what its handlers are, does not matter. -/
theorem registered_moved {rpc rpc' : Rpc η} (registered : Registered agreement rpc)
    (entries : rpc'.entries = rpc.entries) (awaiting : rpc'.awaiting = rpc.awaiting) :
    Registered agreement rpc' := by
  have same : ∀ t, rpc'.binding? t = rpc.binding? t := fun t => by
    unfold binding?
    rw [entries]
  constructor
  · exact (same _).trans registered.setup
  · exact fun t binding known => (same t).trans (registered.bound t binding known)
  · exact awaiting.trans registered.unmarked

/-! ### One call -/

/-- The handler has its new state and so has what it sees besides; the one message that the
other party found is the request, both panes are empty, and nothing is owed. -/
structure Answered (low high : View) (w : World η ζ τ) (t : MessageType) (handler : ζ)
    (m' : Machine) (now : Moment (Rpc η) (Callee ζ τ)) : Prop where
  self : now.self = { w.left with transport := now.self.transport }
  callee : now.scene.others.rpc =
    { w.right.handle t handler with transport := now.scene.others.rpc.transport }
  log : ∃ count, now.scene.others.log = .ok (.handled t) :: idles count
  machine : now.scene.machine = { m' with memory := now.scene.machine.memory }
  confined : Confined low high m'.memory now.scene.machine.memory
  drained : Slotted low high now.scene.machine.memory now.self.transport
    now.scene.others.rpc.transport [] []
  unmarked : now.self.isOutstanding = false ∧ now.scene.others.rpc.isOutstanding = false

/-- However the call ended, the parties are connected again. -/
theorem Answered.connected {now : Moment (Rpc η) (Callee ζ τ)}
    (answered : Answered low high w t handler m' now)
    (connected : Connected agreement low high w) :
    Connected agreement low high (after now) where
  left := by
    change Registered agreement now.self
    rw [answered.self]
    exact registered_moved connected.left rfl rfl
  right := by
    change Registered agreement now.scene.others.rpc
    rw [answered.callee]
    exact registered_moved connected.right rfl rfl
  slotted := answered.drained

variable [Handler ζ τ]

/-- The request fits the slot and is answered by the handler, or there is no reply. -/
theorem converse_cases (aloof : Aloof low high ζ τ) (connected : Connected agreement low high w)
    (known : agreement.binding? t = some binding) (plain : binding.usesCaps = false)
    (kinds : args.map Value.kind = binding.args) (visits : List (List Act)) :
    (w.left.transport.width < Inline.size args ∧
        ∃ e, converse t args binding.rets (moment w visits) = .error (.failed e) (moment w visits)) ∨
      ∃ memory, Confined low high w.machine.memory memory ∧
        (Halted (converse t args binding.rets (moment w visits)) ∧
            (0 < busy visits → ¬ Complies w.right binding t args { w.machine with memory } w.rest
              w.left.transport.width) ∨
          ∃ rets handler m' now, converse t args binding.rets (moment w visits) = .ok rets now ∧
            Responds w.right t args { w.machine with memory } w.rest rets handler m'
              now.scene.others.rest ∧ Answered low high w t handler m' now) := by
  have encoded := encode_eq (moment w visits) (t := t) connected.slotted.isEndpoint t.code
    args .near
  rcases Inline.encode_cases t t.code (kinds ▸ capless_args plain) connected.slotted.one_le_width
    connected.slotted.width_lt with ⟨-, request, written, holding⟩ | ⟨large, e, refused⟩
  swap
  · refine .inl ⟨large, e, Task.bind_error ?_⟩
    rw [encoded]
    exact congrFun (congrArg Task.ofExcept refused) _
  right
  have encoded : encode t t.code args .near (moment w visits) = .ok request (moment w visits) :=
    encoded.trans (congrFun (congrArg Task.ofExcept written) _)
  obtain ⟨p, memory₁, sent⟩ :=
    transmit_ok w.left connected.slotted holding.width holding.capless
  have width : p.width = w.left.transport.width :=
    sent.slotted.width_eq.symm.trans connected.slotted.width_eq
  have eq : converse t args binding.rets (moment w visits) = _ := Task.bind_ok encoded
  obtain ⟨memory, confined, ended⟩ := serves_request (m := { w.machine with memory := memory₁ })
    (s := w.rest) w.right aloof sent.slotted (width ▸ holding)
    (connected.right.bound t binding known) plain kinds (agreement.ne_setupPage known)
    (agreement.ne_initiate known) (agreement.asks t binding known)
  refine ⟨memory, sent.confined.trans confined, ?_⟩
  rcases ended with ⟨rets, handler, m', reply, now, replied⟩ | ⟨declines, silent⟩
  swap
  · have halted := transact_silent w.left ⟨w.right, w.rest, []⟩ (t := t) sent silent
      visits
    exact .inl ⟨eq ▸ halted_bind halted, fun _ => width ▸ declines⟩
  rcases transact_replied w.left ⟨w.right, w.rest, []⟩ connected.left.unmarked sent
    replied visits with
    ⟨idle, halted⟩ | ⟨later, count, p', memory₂, slotted₂, confined₂, transacted⟩
  · refine .inl ⟨eq ▸ halted_bind halted, fun attended => ?_⟩
    rw [idle] at attended
    exact absurd attended (Nat.lt_irrefl 0)
  right
  have reads := replied.holding.reads
  rw [replied.kinds] at reads
  refine ⟨rets, handler, m', _, eq.trans ((Task.bind_ok transacted).trans
    ((decode_eq _ slotted₂.isEndpoint _ _ _).trans
      (congrFun (congrArg Task.ofExcept reads) _))), replied.responds, ?_⟩
  exact {
    self := rfl
    callee := replied.self
    log := ⟨count, rfl⟩
    machine := by
      have same := replied.machine
      simp only
      rw [same]
    confined := replied.confined.trans confined₂
    drained := slotted₂
    unmarked := by
      have callee := connected.right.idle
      constructor
      · exact connected.left.idle
      · simp only
        rw [replied.self]
        exact callee }

/-- A call that passes a capability, or arguments of other kinds, fails and changes
nothing. -/
theorem call_refused (connected : Connected agreement low high w)
    (known : agreement.binding? t = some binding)
    (wrong : ¬ (args.map Value.kind = binding.args ∧ binding.usesCaps = false))
    (visits : List (List Act)) :
    ∃ e, call t args (moment w visits) = .error (.failed e) (moment w visits) := by
  have free : ¬ w.left.isOutstanding = true := by
    rw [connected.left.idle]
    exact Bool.false_ne_true
  have bound := connected.left.bound t binding known
  change ∃ e, call t args ⟨w.left, ⟨w.machine, ⟨w.right, w.rest, []⟩⟩, visits.map noting⟩ = _
  unfold call
  rw [Task.self_bind, if_neg free]
  simp only [bound]
  by_cases kinds : args.map Value.kind = binding.args
  · have checked : Value.check t binding.args args = .ok () := if_pos kinds
    have caps : binding.usesCaps = true := by
      rw [← Bool.not_eq_false]
      exact fun plain => wrong ⟨kinds, plain⟩
    have refused : (!w.left.transport.isEndpoint && binding.usesCaps) = true := by
      rw [connected.slotted.isEndpoint, caps]
      rfl
    rw [checked, refused]
    exact ⟨_, rfl⟩
  · have checked : Value.check t binding.args args = .error (.argMismatch t) := if_neg kinds
    rw [checked]
    exact ⟨_, rfl⟩

/-- Any other call goes on without a page. -/
theorem call_eq (connected : Connected agreement low high w)
    (known : agreement.binding? t = some binding) (kinds : args.map Value.kind = binding.args)
    (plain : binding.usesCaps = false) (visits : List (List Act)) :
    call t args (moment w visits) = converse t args binding.rets (moment w visits) := by
  have free : ¬ w.left.isOutstanding = true := by
    rw [connected.left.idle]
    exact Bool.false_ne_true
  have bound := connected.left.bound t binding known
  have checked : Value.check t binding.args args = .ok () := if_pos kinds
  change call t args ⟨w.left, ⟨w.machine, ⟨w.right, w.rest, []⟩⟩, visits.map noting⟩ = _
  unfold call
  rw [Task.self_bind, if_neg free]
  simp only [bound, checked, connected.slotted.isEndpoint, plain, Bool.and_false, Bool.false_and,
    Bool.false_eq_true, if_false]
  rfl

/-- A call that the code can carry out: the arguments are of the right kinds and fit a slot,
and the other party dispatches. -/
structure Proper (w : World η ζ τ) (binding : Binding) (args : List Value)
    (visits : List (List Act)) : Prop where
  kinds : args.map Value.kind = binding.args
  fits : Inline.size args ≤ w.left.transport.width
  attended : 0 < busy visits

/-- How a call may end. It returns what the handler returned; or it fails and changes nothing,
or ends everything, and then the handler did not return what it should, or the call was not a
proper one. -/
theorem call_cases (aloof : Aloof low high ζ τ) (connected : Connected agreement low high w)
    (known : agreement.binding? t = some binding) (args : List Value)
    (visits : List (List Act)) :
    ∃ memory, Confined low high w.machine.memory memory ∧
      ((Halted (call t args (moment w visits)) ∨
          ∃ e, call t args (moment w visits) = .error (.failed e) (moment w visits)) ∧
        (Proper w binding args visits → binding.usesCaps = false →
          ¬ Complies w.right binding t args { w.machine with memory } w.rest
            w.left.transport.width) ∨
        ∃ rets handler m' now, call t args (moment w visits) = .ok rets now ∧
          Responds w.right t args { w.machine with memory } w.rest rets handler m'
            now.scene.others.rest ∧ Answered low high w t handler m' now) := by
  by_cases right : args.map Value.kind = binding.args ∧ binding.usesCaps = false
  swap
  · exact ⟨w.machine.memory, .refl _, .inl ⟨.inr (call_refused connected known right visits),
      fun proper plain => absurd ⟨proper.kinds, plain⟩ right⟩⟩
  rw [call_eq connected known right.1 right.2]
  rcases converse_cases aloof connected known right.2 right.1 visits with
    ⟨large, refused⟩ | ⟨memory, confined, ⟨halted, declines⟩ | answered⟩
  · exact ⟨w.machine.memory, .refl _, .inl ⟨.inr refused,
      fun proper => absurd proper.fits (Nat.not_le.mpr large)⟩⟩
  · exact ⟨memory, confined, .inl ⟨.inl halted, fun proper _ => declines proper.attended⟩⟩
  · exact ⟨memory, confined, .inr answered⟩

/-! ### One call after the other -/

/-- A call by either party, while the other one dispatches. However it ends, everything goes
on unless it ends everything. -/
inductive Step [Handler η τ] (agreement : Agreement) : World η ζ τ → World η ζ τ → Prop
  | forth {w : World η ζ τ} {t : MessageType} {binding : Binding} {args : List Value}
      {visits : List (List Act)} {now : Moment (Rpc η) (Callee ζ τ)}
      (known : agreement.binding? t = some binding)
      (ended : Task.Ends (call t args (moment w visits)) (fun _ now' => now' = now)
        fun stop now' => (∃ e, stop = .failed e) ∧ now' = now) :
      Step agreement w (after now)
  | back {w : World η ζ τ} {t : MessageType} {binding : Binding} {args : List Value}
      {visits : List (List Act)} {now : Moment (Rpc ζ) (Callee η τ)}
      (known : agreement.binding? t = some binding)
      (ended : Task.Ends (call t args (moment w.swap visits)) (fun _ now' => now' = now)
        fun stop now' => (∃ e, stop = .failed e) ∧ now' = now) :
      Step agreement w (after now).swap

/-- Any number of calls, one after the other. -/
def Runs [Handler η τ] (agreement : Agreement) : World η ζ τ → World η ζ τ → Prop :=
  Relation.ReflTransGen (Step agreement)

/-- Whatever call the left party makes now without capabilities, the handler of the right
party is run on its arguments, with nothing but the panes changed. A proper call returns what
the handler returns there, if that keeps to the binding and fits a slot; and no call returns
anything else. -/
def CallsReturn (agreement : Agreement) (low high : View) (w : World η ζ τ) : Prop :=
  ∀ (t : MessageType) (binding : Binding) (args : List Value) (visits : List (List Act)),
    agreement.binding? t = some binding → binding.usesCaps = false →
    ∃ memory, Confined low high w.machine.memory memory ∧
      (Proper w binding args visits → ∀ rets handler m' s',
        Responds w.right t args { w.machine with memory } w.rest rets handler m' s' →
        rets.map Value.kind = binding.rets → Inline.size rets ≤ w.left.transport.width →
        ∃ now, call t args (moment w visits) = .ok rets now ∧ now.scene.others.rest = s' ∧
          Answered low high w t handler m' now) ∧
      ∀ rets now, call t args (moment w visits) = .ok rets now → ∃ handler m',
        Responds w.right t args { w.machine with memory } w.rest rets handler m'
          now.scene.others.rest ∧ Answered low high w t handler m' now

theorem Connected.callsReturn (aloof : Aloof low high ζ τ)
    (connected : Connected agreement low high w) : CallsReturn agreement low high w := by
  intro t binding args visits known plain
  obtain ⟨memory, confined, ⟨gaveUp, declines⟩ |
    ⟨rets, handler, m', now, returned, responds, answered⟩⟩ :=
      call_cases aloof connected known args visits
  · refine ⟨memory, confined, ?_, ?_⟩
    · intro proper rets handler m' s' responds kinds fits
      exact absurd ⟨rets, handler, m', s', responds, kinds, fits⟩ (declines proper plain)
    · intro rets now returned
      rcases gaveUp with ⟨h, now', halted⟩ | ⟨e, failed⟩
      · cases halted.symm.trans returned
      · cases failed.symm.trans returned
  · refine ⟨memory, confined, ?_, ?_⟩
    · intro _ rets' handler' m'' s'' responds' _ _
      obtain ⟨rfl, rfl, rfl, same⟩ := responds.unique responds'
      exact ⟨now, returned, same, answered⟩
    · intro rets' now' returned'
      cases returned.symm.trans returned'
      exact ⟨handler, m', responds, answered⟩

theorem connected_after (aloof : Aloof low high ζ τ)
    (connected : Connected agreement low high w) (known : agreement.binding? t = some binding)
    {now : Moment (Rpc η) (Callee ζ τ)}
    (ended : Task.Ends (call t args (moment w visits)) (fun _ now' => now' = now)
      fun stop now' => (∃ e, stop = .failed e) ∧ now' = now) :
    Connected agreement low high (after now) := by
  obtain ⟨memory, confined, ⟨⟨h, now', halted⟩ | ⟨e, failed⟩, -⟩ |
    ⟨rets, handler, m', now', returned, responds, answered⟩⟩ :=
      call_cases aloof connected known args visits
  · rw [halted] at ended
    obtain ⟨⟨e, same⟩, -⟩ := ended
    cases same
  · rw [failed] at ended
    obtain ⟨-, rfl⟩ := ended
    exact connected
  · rw [returned] at ended
    obtain rfl := ended
    exact answered.connected connected

/-! ### Before the first call -/

/-- Two parties at the two ends of a channel over one new frame, with the agreed bindings. -/
structure Opened (agreement : Agreement) (a b : SlotChannel) (w : World η ζ τ) : Prop where
  left : Registered agreement w.left
  right : Registered agreement w.right
  acrossLeft : w.left.transport = .slots a
  acrossRight : w.right.transport = .slots b
  frame : ∃ (memory : Memory) (bytes slotBytes : Nat) (v : View),
    memory.allocate bytes = .ok (v, w.machine.memory) ∧
    SlotChannel.overHalves v slotBytes true = .ok a ∧
    SlotChannel.overHalves v slotBytes false = .ok b

omit [Handler ζ τ] in
theorem Opened.connected {a b : SlotChannel} (opened : Opened agreement a b w) :
    Connected agreement a.sendPane a.recvPane w := by
  obtain ⟨memory, bytes, slotBytes, v, allocated, first, second⟩ := opened.frame
  refine ⟨opened.left, opened.right, ?_⟩
  rw [opened.acrossLeft, opened.acrossRight]
  exact slotted_overHalves allocated first second

/-- A party that has registered its bindings and has its handlers. -/
def installed (transport : Transport) (bindings : List Binding) (handlers : Table MessageType η)
    (pageSize : Nat) : Rpc η :=
  { ((create transport : Rpc η).registerAll bindings).2 with handlers, pageSize }

section Installed

variable {transport : Transport} {bindings : List Binding} {handlers : Table MessageType η}
  {pageSize : Nat}

theorem transport_installed :
    (installed transport bindings handlers pageSize).transport = transport := by
  unfold installed
  rw [registerAll_entries]
  rfl

theorem registered_installed (other : ∀ binding ∈ bindings, binding.type ≠ setupPage)
    (bound : ∀ t binding, agreement.binding? t = some binding →
      (installed transport bindings handlers pageSize).binding? t = some binding) :
    Registered agreement (installed transport bindings handlers pageSize) where
  setup := (binding?_registerAll _ other).trans rfl
  bound := bound
  unmarked := by
    unfold installed
    rw [registerAll_entries]
    rfl

end Installed

variable [Handler η τ]

/-- A call that returns is a step. -/
theorem step_of_ok (known : agreement.binding? t = some binding)
    {now : Moment (Rpc η) (Callee ζ τ)}
    (returned : call t args (moment w visits) = .ok rets now) : Step agreement w (after now) := by
  have ended : Task.Ends (call t args (moment w visits)) (fun _ now' => now' = now)
      fun stop now' => (∃ e, stop = .failed e) ∧ now' = now := by
    rw [returned]
    rfl
  exact .forth known ended

theorem Step.connected (left : Aloof low high η τ) (right : Aloof low high ζ τ)
    (step : Step agreement w w') (connected : Connected agreement low high w) :
    Connected agreement low high w' := by
  cases step with
  | forth known ended => exact connected_after right connected known ended
  | back known ended => exact (connected_after left.symm connected.symm known ended).symm

theorem Runs.connected (left : Aloof low high η τ) (right : Aloof low high ζ τ)
    (runs : Runs agreement w w') (connected : Connected agreement low high w) :
    Connected agreement low high w' := by
  induction runs with
  | refl => exact connected
  | tail _ step ih => exact step.connected left right ih

/-- After any number of calls in either direction, the next call, whoever makes it, returns
what the handler of the other party returns on its arguments. -/
theorem inline_calls_return {a b : SlotChannel} (left : Aloof a.sendPane a.recvPane η τ)
    (right : Aloof a.sendPane a.recvPane ζ τ) (opened : Opened agreement a b w)
    (runs : Runs agreement w w') :
    CallsReturn agreement a.sendPane a.recvPane w' ∧
      CallsReturn agreement a.recvPane a.sendPane w'.swap := by
  have connected := runs.connected left right opened.connected
  exact ⟨connected.callsReturn right, connected.symm.callsReturn left.symm⟩

/-! ### Two parties that greet each other -/

theorem aloof_tally : Aloof low high Tally τ :=
  fun _ _ _ _ _ _ => ⟨⟨id, fun _ _ => rfl⟩, ⟨id, fun _ _ => rfl⟩⟩

/-- One end of a channel with one slot of four words in each direction. -/
def slotEnd (send recv : Nat) : SlotChannel :=
  { sendPane := ⟨0, send, 4⟩, recvPane := ⟨0, recv, 4⟩, slotWords := 4, slots := 1 }

/-- A party with the one binding of the greeting. -/
def greeter (chan : SlotChannel) : Rpc Tally :=
  installed (.slots chan) [⟨⟨10⟩, [.str], [.str]⟩]
    (({} : Table MessageType Tally).insert ⟨10⟩ ⟨0⟩) standardPageSize

/-- Two such parties over one frame. -/
def greeters : World Tally Tally Unit :=
  ⟨{ Machine.create 1 with memory := { blocks := #[Array.replicate 8 0] } },
    greeter (slotEnd 0 4), greeter (slotEnd 4 0), ()⟩

theorem opened_greeters : Opened greeting (slotEnd 0 4) (slotEnd 4 0) greeters := by
  have registered (chan : SlotChannel) : Registered greeting (greeter chan) := by
    refine registered_installed (by decide) fun t binding known => ?_
    obtain ⟨rfl, rfl⟩ := greeting_eq known
    rfl
  exact ⟨registered _, registered _, transport_installed, transport_installed,
    {}, 64, 32, ⟨0, 0, 8⟩, rfl, rfl, rfl⟩

/-- One of them called the other, which fills and frees the only slot of each pane; now the
other calls back with a letter of two bytes and a zero byte. -/
theorem inline_calls_return_back : ∃ (w : World Tally Tally Unit)
    (now : Moment (Rpc Tally) (Callee Tally Unit)),
    Opened greeting (slotEnd 0 4) (slotEnd 4 0) greeters ∧ Runs greeting greeters w ∧
    Proper w.swap ⟨⟨10⟩, [.str], [.str]⟩ [.str "ä\x00"] [[], [.message, .pending]] ∧
    call ⟨10⟩ [.str "ä\x00"] (moment w.swap [[], [.message, .pending]]) =
      .ok [.str "ä\x00"] now ∧
    now.scene.others.rpc.handlers.get? ⟨10⟩ = some ⟨1⟩ ∧
    ∃ count, now.scene.others.log = .ok (.handled ⟨10⟩) :: idles count := by
  have ran : ((Task.success? (call ⟨10⟩ [.str "hello"] (moment greeters [[.pending]]))).map
      fun done =>
        let w := (after done.2).swap
        (w.left.transport.width, w.right.handlers.get? ⟨10⟩)) = some (3, some ⟨0⟩) := by
    decide +kernel
  obtain ⟨⟨values, now⟩, returned, same⟩ := Option.map_eq_some_iff.mp ran
  simp only [Prod.mk.injEq] at same
  obtain ⟨width, handler⟩ := same
  have returned := Task.success?_eq_some returned
  have known : greeting.binding? ⟨10⟩ = some ⟨⟨10⟩, [.str], [.str]⟩ := rfl
  have runs : Runs greeting greeters (after now) := .single (step_of_ok known returned)
  have fits : Inline.size [.str "ä\x00"] ≤ (after now).swap.left.transport.width := by
    rw [width]
    decide +kernel
  have proper : Proper (after now).swap ⟨⟨10⟩, [.str], [.str]⟩ [.str "ä\x00"]
      [[], [.message, .pending]] := ⟨rfl, fits, by decide⟩
  obtain ⟨memory, -, returns, -⟩ := (inline_calls_return aloof_tally aloof_tally opened_greeters
    runs).2 ⟨10⟩ _ [.str "ä\x00"] [[], [.message, .pending]] known rfl
  obtain ⟨now', returned', -, answered⟩ := returns proper [.str "ä\x00"] ⟨1⟩ _ ()
    ⟨⟨0⟩, [], handler, rfl⟩ rfl fits
  refine ⟨after now, now', opened_greeters, runs, proper, returned', ?_, answered.log⟩
  rw [answered.callee]
  exact (Table.get?_insert ..).trans (if_pos rfl)

end Shared

end Rpc

end Conduit

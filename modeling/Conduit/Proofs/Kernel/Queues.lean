/-
# Queues of a capability channel

What an endpoint does is a change of one queue: sending puts a letter at the end of
the peer's queue, receiving takes the first one of its own. `Machine.posted` and
`Machine.fetched` are the machines after that, and everything but the one queue is
as it was. Those laws hold where no fault is planned; `send_effect` and `recv_effect`
say what becomes of the queues whatever is planned, and what else an endpoint or the
allocator is asked for leaves them alone. A letter has the words that were put into it,
with zeros behind them.
-/

import Conduit.Endpoint
import Mathlib.Data.List.GetD
import Mathlib.Logic.Function.Basic

namespace Conduit

/-- Words that fit a letter are followed by zeros. -/
theorem Letter.toList_fit_append {words : List UInt64} (fits : words.length ≤ Letter.width) :
    (Letter.fit words).toList = words ++ List.replicate (Letter.width - words.length) 0 := by
  apply List.ext_getElem
  · rw [Vector.length_toList, List.length_append, List.length_replicate]
    omega
  · intro i hi hi'
    simp only [Letter.fit, Vector.getElem_toList, Vector.getElem_ofFn]
    by_cases here : i < words.length
    · rw [List.getElem_append_left here, List.getD_eq_getElem _ _ here]
    · rw [List.getElem_append_right (by omega), List.getElem_replicate,
        List.getD_eq_default _ _ (by omega)]

/-- A letter that is full has just these words. -/
theorem Letter.toList_fit {words : List UInt64} (full : words.length = Letter.width) :
    (Letter.fit words).toList = words := by
  rw [toList_fit_append (Nat.le_of_eq full), full, Nat.sub_self, List.replicate_zero,
    List.append_nil]

namespace Machine

/-- No fault is planned for this operation of the endpoint. -/
def Spares (m : Machine) (cap : Cap) (op : EndpointOp) : Prop :=
  m.nextFault (.endpoint cap op) = (none, m)

/-- The machine with this queue at an endpoint. -/
def fetched (m : Machine) (cap : Cap) (queue : List Letter) : Machine :=
  { m with kernel := { m.kernel with queues := m.kernel.queues.insert cap queue } }

/-- The machine with this queue at an endpoint, after one more send. -/
def posted (m : Machine) (cap : Cap) (queue : List Letter) (flags : SendFlags) : Machine :=
  { m with kernel := { m.kernel with
      queues := m.kernel.queues.insert cap queue
      syncSends := if flags.sync then m.kernel.syncSends + 1 else m.kernel.syncSends } }

variable {m : Machine} {cap other : Cap} {queue : List Letter} {flags : SendFlags}
  {op : EndpointOp}

theorem get?_fetched : (m.fetched cap queue).kernel.queues.get? other =
    if cap = other then some queue else m.kernel.queues.get? other := Table.get?_insert ..

theorem get?_posted : (m.posted cap queue flags).kernel.queues.get? other =
    if cap = other then some queue else m.kernel.queues.get? other := Table.get?_insert ..

/-- No fault is planned where there is no plan, or its entries are used up. -/
theorem spares_iff : m.Spares cap op ↔
    m.faults.get? (.endpoint cap op) = none ∨ m.faults.get? (.endpoint cap op) = some [] := by
  unfold Spares nextFault
  cases plan : m.faults.get? (.endpoint cap op) with
  | none => simp
  | some entries =>
      cases entries with
      | nil => simp
      | cons entry rest =>
          constructor
          · intro spared
            have plans := congrArg (fun p => p.2.faults.get? (.endpoint cap op)) spared
            simp only [Table.get?_insert, if_true, plan, Option.some.injEq] at plans
            have lengths := congrArg List.length plans
            rw [List.length_cons] at lengths
            omega
          · rintro (no | no)
            · cases no
            · cases no

/-- Whether a fault is planned depends on the plans alone. -/
theorem spares_congr {m' : Machine} (same : m'.faults = m.faults) :
    m'.Spares cap op ↔ m.Spares cap op := by
  rw [spares_iff, spares_iff, same]

@[simp] theorem spares_fetched : (m.fetched cap queue).Spares other op ↔ m.Spares other op :=
  spares_congr rfl

@[simp] theorem spares_posted : (m.posted cap queue flags).Spares other op ↔ m.Spares other op :=
  spares_congr rfl

/-- Taking an entry of some plan plans nothing. -/
theorem Spares.nextFault (spared : m.Spares cap op) (site : FaultSite) :
    (m.nextFault site).2.Spares cap op := by
  unfold Machine.nextFault
  cases plan : m.faults.get? site with
  | none => exact spared
  | some entries =>
      cases entries with
      | nil => exact spared
      | cons entry rest =>
          rw [spares_iff] at spared ⊢
          simp only [Table.get?_insert]
          by_cases same : site = .endpoint cap op
          · rw [same] at plan
            rw [plan] at spared
            rcases spared with no | no
            · cases no
            · cases no
          · rw [if_neg same]
            exact spared

end Machine

namespace Endpoint

variable {ep : Endpoint} {m : Machine} {peer : Cap} {queue : List Letter}

/-- A full queue refuses a letter for the moment. -/
theorem send_full (spared : m.Spares ep.home .send) (known : ep.peer = some peer)
    (held : m.kernel.queues.get? peer = some queue) (full : m.kernel.depth ≤ queue.length)
    (flags : SendFlags) (letter : Letter) : ep.send flags letter m = (.error .transient, m) := by
  have spared : m.nextFault (.endpoint ep.home .send) = (none, m) := spared
  simp only [send, unlessFault, spared, known, Machine.onKernel_, Machine.onKernel,
    Kernel.enqueue, held, ge_iff_le, if_pos full]
  rfl

/-- Any other queue takes a letter at its end. -/
theorem send_space (spared : m.Spares ep.home .send) (known : ep.peer = some peer)
    (held : m.kernel.queues.get? peer = some queue) (space : queue.length < m.kernel.depth)
    (flags : SendFlags) (letter : Letter) :
    ep.send flags letter m = (.ok (), m.posted peer (queue ++ [letter]) flags) := by
  have spared : m.nextFault (.endpoint ep.home .send) = (none, m) := spared
  simp only [send, unlessFault, spared, known, Machine.onKernel_, Machine.onKernel,
    Kernel.enqueue, held, ge_iff_le, if_neg (Nat.not_le.mpr space)]
  rfl

/-- Nothing is received from an empty queue. -/
theorem recv_nil (spared : m.Spares ep.home .recv)
    (held : m.kernel.queues.get? ep.home = some []) : ep.recv m = (.error .noMessage, m) := by
  have spared : m.nextFault (.endpoint ep.home .recv) = (none, m) := spared
  simp only [recv, unlessFault, spared, Machine.onKernel, Kernel.dequeue, held]

/-- The first letter of the queue is received. -/
theorem recv_cons {letter : Letter} (spared : m.Spares ep.home .recv)
    (held : m.kernel.queues.get? ep.home = some (letter :: queue)) :
    ep.recv m = (.ok letter, m.fetched ep.home queue) := by
  have spared : m.nextFault (.endpoint ep.home .recv) = (none, m) := spared
  simp only [recv, unlessFault, spared, Machine.onKernel, Kernel.dequeue, held]
  rfl

/-- An endpoint can receive exactly if its queue is not empty. -/
theorem canRecv_eq (held : m.kernel.queues.get? ep.home = some queue) :
    ep.canRecv m = !queue.isEmpty := by
  simp only [canRecv, Kernel.pending, Kernel.waiting, held, Option.getD_some]
  cases queue with
  | nil => rfl
  | cons letter queue => rfl

end Endpoint

/-! ### Whatever is planned -/

/-- Letters wait for an endpoint that has a queue. -/
theorem Kernel.get?_of_waiting {k : Kernel} {cap : Cap} {letter : Letter}
    {later : List Letter} (waits : k.waiting cap = letter :: later) :
    k.queues.get? cap = some (letter :: later) := by
  unfold Kernel.waiting at waits
  cases held : k.queues.get? cap with
  | none =>
      rw [held] at waits
      cases waits
  | some queue =>
      rw [held] at waits
      exact congrArg some waits

theorem Kernel.waiting_insert {k : Kernel} {cap : Cap} {queue : List Letter} {syncSends : Nat} :
    Kernel.waiting { k with queues := k.queues.insert cap queue, syncSends } =
      Function.update k.waiting cap queue := by
  funext other
  simp only [Kernel.waiting, Table.get?_insert, Function.update_apply]
  by_cases same : cap = other
  · simp [same]
  · simp [same, Ne.symm same]

theorem Machine.waiting_fetched {m : Machine} {cap : Cap} {queue : List Letter} :
    (m.fetched cap queue).kernel.waiting = Function.update m.kernel.waiting cap queue :=
  Kernel.waiting_insert

theorem Machine.waiting_posted {m : Machine} {cap : Cap} {queue : List Letter}
    {flags : SendFlags} :
    (m.posted cap queue flags).kernel.waiting = Function.update m.kernel.waiting cap queue :=
  Kernel.waiting_insert

/-- Taking an entry of a plan changes nothing else. -/
theorem Machine.nextFault_snd (m : Machine) (site : FaultSite) :
    (m.nextFault site).2 = { m with faults := (m.nextFault site).2.faults } := by
  unfold nextFault
  cases m.faults.get? site with
  | none => rfl
  | some entries =>
      cases entries with
      | nil => rfl
      | cons entry rest => rfl

theorem Machine.kernel_nextFault (m : Machine) (site : FaultSite) :
    (m.nextFault site).2.kernel = m.kernel := by
  rw [m.nextFault_snd site]

theorem Machine.faults_onKernel {α : Type} (m : Machine)
    (op : Kernel → Except ChannelError (α × Kernel)) : (m.onKernel op).2.faults = m.faults := by
  unfold Machine.onKernel
  cases op m.kernel with
  | error e => rfl
  | ok result => rfl

theorem Machine.kernel_callMapFrame (m : Machine) (cap : Cap) :
    (m.callMapFrame cap).2.kernel = m.kernel := by
  have same := m.kernel_nextFault (.allocator .mapFrame)
  unfold Machine.callMapFrame
  rcases taken : m.nextFault (.allocator .mapFrame) with ⟨_ | e, m'⟩ <;> rw [taken] at same
  · exact same
  · exact same

theorem Machine.waiting_callMapFrame (m : Machine) (cap : Cap) :
    (m.callMapFrame cap).2.kernel.waiting = m.kernel.waiting :=
  congrArg Kernel.waiting (m.kernel_callMapFrame cap)

/-- A frame that is allocated gets the next slot and a block of its own; otherwise nothing
changes. -/
theorem Machine.allocFrame_effect {m m' : Machine} {bytes : Nat}
    {answer : Except ChannelError Cap} (ran : m.allocFrame bytes = .ok (answer, m')) :
    (m.kernel.nextSlot = 0xffffffff ∧ answer = .error .noSpace ∧ m' = m) ∨
      ∃ view memory, answer = .ok ⟨m.kernel.nextSlot⟩ ∧ m.kernel.nextSlot ≠ 0xffffffff ∧
        m.memory.allocate bytes = .ok (view, memory) ∧
        m' = { m with
          kernel := { m.kernel with
            nextSlot := m.kernel.nextSlot + 1
            frames := m.kernel.frames.insert ⟨m.kernel.nextSlot⟩ view }
          memory } := by
  unfold allocFrame Kernel.allocSlot at ran
  by_cases last : m.kernel.nextSlot = 0xffffffff
  · rw [if_pos last] at ran
    cases ran
    exact .inl ⟨last, rfl, rfl⟩
  · rw [if_neg last] at ran
    obtain ⟨⟨view, memory⟩, allocated, ran⟩ := of_bind_ok ran
    cases ran
    exact .inr ⟨view, memory, rfl, last, allocated, rfl⟩

/-- For a call, a planned fault may be met before. -/
theorem Machine.callAllocFrame_effect {m m' : Machine} {bytes : Nat}
    {answer : Except ChannelError Cap} (ran : m.callAllocFrame bytes = .ok (answer, m')) :
    m'.faults = (m.nextFault (.allocator .allocFrame)).2.faults ∧
      ((∃ e, answer = .error e ∧ m' = { m with faults := m'.faults }) ∨
        ∃ view memory, answer = .ok ⟨m.kernel.nextSlot⟩ ∧ m.kernel.nextSlot ≠ 0xffffffff ∧
          m.memory.allocate bytes = .ok (view, memory) ∧
          m' = { m with
            kernel := { m.kernel with
              nextSlot := m.kernel.nextSlot + 1
              frames := m.kernel.frames.insert ⟨m.kernel.nextSlot⟩ view }
            memory
            faults := m'.faults }) := by
  have same := m.nextFault_snd (.allocator .allocFrame)
  unfold callAllocFrame at ran
  rcases taken : m.nextFault (.allocator .allocFrame) with ⟨_ | e, m₁⟩ <;> rw [taken] at ran same
  · obtain ⟨faults, rfl⟩ : ∃ faults, m₁ = { m with faults } := ⟨_, same⟩
    obtain ⟨-, rfl, rfl⟩ | ⟨view, memory, rfl, left, allocated, rfl⟩ := allocFrame_effect ran
    · exact ⟨rfl, .inl ⟨_, rfl, rfl⟩⟩
    · exact ⟨rfl, .inr ⟨view, memory, rfl, left, allocated, rfl⟩⟩
  · cases ran
    exact ⟨rfl, .inl ⟨e, rfl, same⟩⟩

theorem Machine.waiting_callAllocFrame {m m' : Machine} {bytes : Nat}
    {answer : Except ChannelError Cap} (ran : m.callAllocFrame bytes = .ok (answer, m')) :
    m'.kernel.waiting = m.kernel.waiting := by
  obtain ⟨-, ⟨e, -, same⟩ | ⟨view, memory, -, -, -, same⟩⟩ := callAllocFrame_effect ran
  · rw [same]
  · rw [same]
    rfl

namespace Endpoint

variable {ep : Endpoint} {m m' : Machine} {letter : Letter} {flags : SendFlags}

theorem waiting_unlessFault {α : Type} {op : EndpointOp} {e : ChannelError}
    {run : Machine → Except ChannelError α × Machine}
    (keeps : ∀ m, (run m).1 = .error e → (run m).2.kernel.waiting = m.kernel.waiting)
    (refused : ep.unlessFault op m run = (.error e, m')) :
    m'.kernel.waiting = m.kernel.waiting := by
  have same := m.kernel_nextFault (.endpoint ep.home op)
  unfold unlessFault at refused
  rcases taken : m.nextFault (.endpoint ep.home op) with ⟨_ | e, m₁⟩ <;> rw [taken] at same refused
  · have kept := keeps m₁ (congrArg Prod.fst refused)
    rw [congrArg Prod.snd refused] at kept
    exact kept.trans (congrArg Kernel.waiting same)
  · have moved : m₁ = m' := congrArg Prod.snd refused
    rw [← moved]
    exact congrArg Kernel.waiting same

/-- A letter that is sent goes behind those that wait at the peer. -/
theorem send_effect (sent : ep.send flags letter m = (.ok (), m')) :
    ∃ peer, ep.peer = some peer ∧ m'.kernel.waiting =
      Function.update m.kernel.waiting peer (m.kernel.waiting peer ++ [letter]) := by
  have same := m.kernel_nextFault (.endpoint ep.home .send)
  unfold send unlessFault at sent
  rcases taken : m.nextFault (.endpoint ep.home .send) with ⟨_ | e, m₁⟩ <;> rw [taken] at same sent
  · cases known : ep.peer with
    | none => simp [known] at sent
    | some peer =>
        refine ⟨peer, rfl, ?_⟩
        rw [← congrArg Kernel.waiting same]
        simp only [known, Machine.onKernel_, Machine.onKernel, Kernel.enqueue] at sent
        cases held : m₁.kernel.queues.get? peer with
        | none => simp [held, Except.map] at sent
        | some queue =>
            by_cases full : queue.length ≥ m₁.kernel.depth
            · simp [held, full, Except.map] at sent
            · simp only [held, if_neg full, Except.map, Prod.mk.injEq] at sent
              rw [← sent.2]
              have waits : m₁.kernel.waiting peer = queue := by simp [Kernel.waiting, held]
              rw [waits]
              exact Kernel.waiting_insert
  · simp at sent

/-- A letter that is not sent goes nowhere. -/
theorem send_refused {e : ChannelError} (refused : ep.send flags letter m = (.error e, m')) :
    m'.kernel.waiting = m.kernel.waiting := by
  refine waiting_unlessFault (fun m answer => ?_) refused
  cases known : ep.peer with
  | none => simp
  | some peer =>
      simp only [known, Machine.onKernel_, Machine.onKernel] at answer ⊢
      cases queued : m.kernel.enqueue peer letter flags with
      | error e => rfl
      | ok k => simp [queued, Except.map] at answer

/-- A letter that is received was the first of those that wait. -/
theorem recv_effect (received : ep.recv m = (.ok letter, m')) :
    ∃ rest, m.kernel.waiting ep.home = letter :: rest ∧
      m'.kernel.waiting = Function.update m.kernel.waiting ep.home rest := by
  have same := m.kernel_nextFault (.endpoint ep.home .recv)
  unfold recv unlessFault at received
  rcases taken : m.nextFault (.endpoint ep.home .recv) with ⟨_ | e, m₁⟩ <;>
    rw [taken] at same received
  · rw [← congrArg Kernel.waiting same]
    simp only [Machine.onKernel, Kernel.dequeue] at received
    cases held : m₁.kernel.queues.get? ep.home with
    | none => simp [held] at received
    | some queue =>
        cases queue with
        | nil => simp [held] at received
        | cons first rest =>
            simp only [held, Prod.mk.injEq, Except.ok.injEq] at received
            refine ⟨rest, ?_, ?_⟩
            · simp [Kernel.waiting, held, received.1]
            · rw [← received.2]
              exact Kernel.waiting_insert
  · simp at received

/-- If receiving is refused, the letters still wait. -/
theorem recv_refused {e : ChannelError} (refused : ep.recv m = (.error e, m')) :
    m'.kernel.waiting = m.kernel.waiting := by
  refine waiting_unlessFault (fun m answer => ?_) refused
  simp only [Machine.onKernel] at answer ⊢
  cases taken : m.kernel.dequeue ep.home with
  | error e => rfl
  | ok taken => simp [taken] at answer

theorem waiting_allocRecvSlot (ep : Endpoint) (m : Machine) :
    (ep.allocRecvSlot m).2.kernel.waiting = m.kernel.waiting := by
  have same := m.kernel_nextFault (.endpoint ep.home .allocSlot)
  unfold allocRecvSlot unlessFault
  rcases taken : m.nextFault (.endpoint ep.home .allocSlot) with ⟨_ | e, m₁⟩ <;> rw [taken] at same
  · rw [← congrArg Kernel.waiting same]
    simp only [Machine.onKernel_, Machine.onKernel, Kernel.allocRecvSlot, Kernel.allocSlot]
    by_cases last : m₁.kernel.nextSlot = 0xffffffff
    · simp only [if_pos last]
      rfl
    · simp only [if_neg last]
      rfl
  · exact congrArg Kernel.waiting same

/-- Arming an endpoint changes neither of its ends. -/
theorem register_ok {ep' : Endpoint} (armed : (ep.register m).1 = .ok ep') :
    ep' = { ep with armed := true } := by
  unfold register unlessFault at armed
  rcases planned : m.nextFault (.endpoint ep.home .register) with ⟨_ | e, m₁⟩ <;>
    rw [planned] at armed
  · exact (Except.ok.inj armed).symm
  · cases armed

/-- A report that is given once changes neither of the ends. -/
theorem takeEvent_ends (ep : Endpoint) (m : Machine) :
    (ep.takeEvent m).2.home = ep.home ∧ (ep.takeEvent m).2.peer = ep.peer := by
  unfold takeEvent
  by_cases due : (ep.armed && ep.canRecv m) = true
  · rw [if_pos due]
    exact ⟨rfl, rfl⟩
  · rw [if_neg due]
    exact ⟨rfl, rfl⟩

theorem waiting_register (ep : Endpoint) (m : Machine) :
    (ep.register m).2.kernel.waiting = m.kernel.waiting := by
  have same := m.kernel_nextFault (.endpoint ep.home .register)
  unfold register unlessFault
  rcases taken : m.nextFault (.endpoint ep.home .register) with ⟨_ | e, m₁⟩ <;> rw [taken] at same
  · exact congrArg Kernel.waiting same
  · exact congrArg Kernel.waiting same

/-! ### Nothing plans a fault -/

variable {cap : Cap} {spare : EndpointOp}

theorem spares_unlessFault {α : Type} {op : EndpointOp} {answer : Except ChannelError α}
    {run : Machine → Except ChannelError α × Machine}
    (keeps : ∀ m, (run m).2.faults = m.faults) (ran : ep.unlessFault op m run = (answer, m'))
    (spared : m.Spares cap spare) : m'.Spares cap spare := by
  have later := spared.nextFault (.endpoint ep.home op)
  unfold unlessFault at ran
  rcases taken : m.nextFault (.endpoint ep.home op) with ⟨_ | e, m₁⟩ <;> rw [taken] at later ran
  · have kept := keeps m₁
    rw [show run m₁ = (answer, m') from ran] at kept
    exact (Machine.spares_congr kept).mpr later
  · cases ran
    exact later

theorem spares_send {answer : Except ChannelError Unit}
    (ran : ep.send flags letter m = (answer, m')) (spared : m.Spares cap spare) :
    m'.Spares cap spare := by
  refine spares_unlessFault (fun m => ?_) ran spared
  cases ep.peer with
  | none => rfl
  | some peer => exact Machine.faults_onKernel m _

theorem spares_recv {answer : Except ChannelError Letter} (ran : ep.recv m = (answer, m'))
    (spared : m.Spares cap spare) : m'.Spares cap spare :=
  spares_unlessFault (fun m => Machine.faults_onKernel m _) ran spared

theorem spares_allocRecvSlot {answer : Except ChannelError Unit}
    (ran : ep.allocRecvSlot m = (answer, m')) (spared : m.Spares cap spare) :
    m'.Spares cap spare :=
  spares_unlessFault (fun m => Machine.faults_onKernel m _) ran spared

theorem spares_register {answer : Except ChannelError Endpoint} (ran : ep.register m = (answer, m'))
    (spared : m.Spares cap spare) : m'.Spares cap spare :=
  spares_unlessFault (fun _ => rfl) ran spared

end Endpoint

namespace Machine

variable {m m' : Machine} {cap : Cap} {spare : EndpointOp}

theorem spares_callMapFrame (spared : m.Spares cap spare) (frame : Cap) :
    (m.callMapFrame frame).2.Spares cap spare := by
  have later := spared.nextFault (.allocator .mapFrame)
  unfold callMapFrame
  rcases taken : m.nextFault (.allocator .mapFrame) with ⟨_ | e, m₁⟩ <;> rw [taken] at later
  · exact later
  · exact later

theorem spares_callAllocFrame {bytes : Nat} {answer : Except ChannelError Cap}
    (spared : m.Spares cap spare) (ran : m.callAllocFrame bytes = .ok (answer, m')) :
    m'.Spares cap spare := by
  have later := spared.nextFault (.allocator .allocFrame)
  exact (spares_congr (callAllocFrame_effect ran).1).mpr later

end Machine

end Conduit

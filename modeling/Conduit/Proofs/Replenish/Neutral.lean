/-
# What hands out no receive slot

On a machine for which no fault is planned, sending and receiving, arming an endpoint, and
allocating and mapping frames hand out no receive slot, and neither does a channel over shared
memory: they are `Machine.Neutral`. One operation does, unless no slot is left
(`Endpoint.allocRecvSlot_quiet`).
-/

import Conduit.Proofs.Kernel.Quiet
import Conduit.Proofs.Kernel.Steady
import Conduit.Proofs.Stream.Width

namespace Conduit

variable {α : Type}

/-- No receive slot was handed out, no slot was taken back, and no fault was planned. -/
structure Machine.Neutral (m m' : Machine) : Prop where
  faults : m'.faults = m.faults
  slots : m.kernel.nextSlot ≤ m'.kernel.nextSlot
  recvSlots : m'.kernel.recvSlots = m.kernel.recvSlots

/-- Where a slot is left, one was left before. -/
theorem Kernel.slot_left {n n' : UInt32} (before : n ≤ n') (left : n' ≠ 0xffffffff) :
    n ≠ 0xffffffff := by
  rintro rfl
  have above := UInt32.le_iff_toNat_le.mp before
  have below := n'.toNat_lt
  have last : (0xffffffff : UInt32).toNat = 0xffffffff := rfl
  exact left (UInt32.toNat_inj.mp (by omega))

namespace Machine

variable {m m' : Machine}

theorem Quiet.congr (quiet : m.Quiet) (same : m'.faults = m.faults) : m'.Quiet := by
  intro site
  rw [same]
  exact quiet site

theorem Neutral.refl (m : Machine) : m.Neutral m := ⟨rfl, UInt32.le_refl _, rfl⟩

/-- Memory and bells do not matter. -/
theorem neutral_aside (memory : Memory) (bells : Bells) :
    m.Neutral { m with memory, bells } := ⟨rfl, UInt32.le_refl _, rfl⟩

theorem neutral_onKernel {op : Kernel → Except ChannelError (α × Kernel)}
    (keeps : ∀ a kernel, op m.kernel = .ok (a, kernel) →
      m.kernel.nextSlot ≤ kernel.nextSlot ∧ kernel.recvSlots = m.kernel.recvSlots) :
    m.Neutral (m.onKernel op).2 := by
  unfold onKernel
  cases ran : op m.kernel with
  | error e => exact .refl m
  | ok answer =>
      obtain ⟨slots, recvSlots⟩ := keeps _ _ ran
      exact ⟨rfl, slots, recvSlots⟩

theorem neutral_enqueue (target : Cap) (letter : Letter) (flags : SendFlags) :
    m.Neutral (m.onKernel_ (·.enqueue target letter flags)).2 := by
  refine neutral_onKernel fun _ kernel queued => ?_
  unfold Kernel.enqueue at queued
  cases held : m.kernel.queues.get? target with
  | none => simp [held, Except.map] at queued
  | some queue =>
      by_cases full : queue.length ≥ m.kernel.depth
      · simp [held, full, Except.map] at queued
      · simp only [held, if_neg full, Except.map, Except.ok.injEq, Prod.mk.injEq] at queued
        rw [← queued.2]
        exact ⟨UInt32.le_refl _, rfl⟩

theorem neutral_dequeue (cap : Cap) : m.Neutral (m.onKernel (·.dequeue cap)).2 := by
  refine neutral_onKernel fun _ kernel taken => ?_
  unfold Kernel.dequeue at taken
  split at taken
  · cases taken
  · cases taken
  · cases taken
    exact ⟨UInt32.le_refl _, rfl⟩

theorem neutral_callMapFrame (quiet : m.Quiet) (cap : Cap) :
    m.Neutral (m.callMapFrame cap).2 := by
  rw [callMapFrame, quiet.nextFault]
  exact .refl m

theorem neutral_allocFrame {bytes : Nat} {answer : Except ChannelError Cap}
    (ran : m.allocFrame bytes = .ok (answer, m')) : m.Neutral m' := by
  obtain ⟨-, -, rfl⟩ | ⟨view, memory, -, left, -, rfl⟩ := allocFrame_effect ran
  · exact .refl _
  · exact ⟨rfl, Kernel.slot_le_succ left, rfl⟩

theorem neutral_callAllocFrame (quiet : m.Quiet) {bytes : Nat} {answer : Except ChannelError Cap}
    (ran : m.callAllocFrame bytes = .ok (answer, m')) : m.Neutral m' := by
  rw [callAllocFrame, quiet.nextFault] at ran
  exact neutral_allocFrame ran

end Machine

namespace Endpoint

variable {ep : Endpoint} {m : Machine}

/-- Where no fault is planned, none strikes. -/
theorem unlessFault_quiet (quiet : m.Quiet) (op : EndpointOp)
    (run : Machine → Except ChannelError α × Machine) : ep.unlessFault op m run = run m := by
  rw [unlessFault, quiet.nextFault]

theorem neutral_send (quiet : m.Quiet) (flags : SendFlags) (letter : Letter) :
    m.Neutral (ep.send flags letter m).2 := by
  rw [send, unlessFault_quiet quiet]
  cases ep.peer with
  | none => exact .refl m
  | some peer => exact Machine.neutral_enqueue peer letter flags

theorem neutral_recv (quiet : m.Quiet) : m.Neutral (ep.recv m).2 := by
  rw [recv, unlessFault_quiet quiet]
  exact Machine.neutral_dequeue ep.home

theorem neutral_register (quiet : m.Quiet) : m.Neutral (ep.register m).2 := by
  rw [register, unlessFault_quiet quiet]
  exact .refl m

/-- A receive slot is handed out, or there was no slot left. -/
theorem allocRecvSlot_quiet (quiet : m.Quiet) (ep : Endpoint) :
    (m.kernel.nextSlot = 0xffffffff ∧ ep.allocRecvSlot m = (.error .noSpace, m)) ∨
    ∃ m', ep.allocRecvSlot m = (.ok (), m') ∧ m.kernel.nextSlot ≠ 0xffffffff ∧
      m'.faults = m.faults ∧ m'.kernel.nextSlot = m.kernel.nextSlot + 1 ∧
      m'.kernel.recvSlots = m.kernel.recvSlots + 1 := by
  rw [allocRecvSlot, unlessFault_quiet quiet, Machine.onKernel_, Machine.onKernel,
    Kernel.allocRecvSlot, Kernel.allocSlot]
  by_cases last : m.kernel.nextSlot = 0xffffffff
  · rw [if_pos last]
    exact .inl ⟨last, rfl⟩
  · rw [if_neg last]
    exact .inr ⟨_, rfl, last, rfl, rfl, rfl⟩

end Endpoint

namespace SlotChannel

variable {c c' : SlotChannel} {m m' : Machine}

theorem neutral_send {payload : List UInt64} {answer : Except Error Bool}
    (ran : c.send payload m = .ok (answer, c', m')) : m.Neutral m' := by
  by_cases filled : answer = .ok true
  · subst filled
    obtain ⟨-, memory, bells, rfl⟩ := changed_of_send_filled ran
    exact Machine.neutral_aside memory bells
  · rw [(eq_of_send_unfilled ran filled).2]
    exact .refl m

theorem neutral_receive {limit : Nat} {words : Option (List UInt64)}
    (ran : c.receive limit m = .ok (words, c', m')) : m.Neutral m' := by
  obtain ⟨-, -, rfl⟩ | ⟨-, memory, -, -, -, -, rfl⟩ := receive_cases ran
  · exact .refl _
  · exact Machine.neutral_aside memory m.bells

theorem neutral_takeNotification {rung : Bool}
    (ran : c.takeNotification m = .ok (rung, m')) : m.Neutral m' := by
  unfold takeNotification at ran
  cases bell : c.localBell with
  | some bell =>
      simp only [bell] at ran
      cases ran
      exact Machine.neutral_aside m.memory _
  | none =>
      simp only [bell] at ran
      cases waiting : c.canReceive m with
      | error cause =>
          rw [waiting] at ran
          cases ran
      | ok waits =>
          rw [waiting] at ran
          cases ran
          exact .refl m

end SlotChannel

end Conduit

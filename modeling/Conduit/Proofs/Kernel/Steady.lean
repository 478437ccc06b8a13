/-
# What messages leave alone

Sending and receiving, asking for a receive slot or for a notification, and looking up a
frame change neither the memory nor the frames, and slots are never taken back (`Steady`).
Only a new frame does, and it changes nothing that was there before.
-/

import Conduit.Proofs.Kernel.Queues
import Conduit.Proofs.Memory.Words

namespace Conduit

namespace Machine

/-- Memory and frames are the same, and no slot is to be handed out again. -/
structure Steady (m m' : Machine) : Prop where
  memory : m'.memory = m.memory
  frames : m'.kernel.frames = m.kernel.frames
  slots : m.kernel.nextSlot ≤ m'.kernel.nextSlot

variable {m m' m'' : Machine}

theorem Steady.refl (m : Machine) : m.Steady m := ⟨rfl, rfl, UInt32.le_refl _⟩

theorem Steady.trans (first : m.Steady m') (later : m'.Steady m'') : m.Steady m'' where
  memory := later.memory.trans first.memory
  frames := later.frames.trans first.frames
  slots := UInt32.le_trans first.slots later.slots

theorem steady_nextFault (m : Machine) (site : FaultSite) : m.Steady (m.nextFault site).2 := by
  rw [nextFault_snd]
  exact ⟨rfl, rfl, UInt32.le_refl _⟩

theorem steady_callMapFrame (m : Machine) (cap : Cap) : m.Steady (m.callMapFrame cap).2 := by
  have steady := m.steady_nextFault (.allocator .mapFrame)
  unfold callMapFrame
  rcases taken : m.nextFault (.allocator .mapFrame) with ⟨_ | e, m₁⟩ <;> rw [taken] at steady
  · exact steady
  · exact steady

/-- A kernel operation that hands out slots at most. -/
theorem steady_onKernel {α : Type} {op : Kernel → Except ChannelError (α × Kernel)}
    (keeps : ∀ a kernel, op m.kernel = .ok (a, kernel) →
      kernel.frames = m.kernel.frames ∧ m.kernel.nextSlot ≤ kernel.nextSlot) :
    m.Steady (m.onKernel op).2 := by
  unfold onKernel
  cases ran : op m.kernel with
  | error e => exact .refl m
  | ok answer =>
      obtain ⟨frames, slots⟩ := keeps _ _ ran
      exact ⟨rfl, frames, slots⟩

end Machine

/-- The next slot is behind those that were handed out. -/
theorem Kernel.slot_le_succ {n : UInt32} (last : n ≠ 0xffffffff) : n ≤ n + 1 := by
  have below := n.toNat_lt
  have ne : n.toNat ≠ 0xffffffff := fun same => last (UInt32.toNat_inj.mp same)
  have next : (n + 1).toNat = n.toNat + 1 := by
    rw [UInt32.toNat_add]
    exact Nat.mod_eq_of_lt (by change _ + 1 < _; omega)
  rw [UInt32.le_iff_toNat_le, next]
  exact Nat.le_succ _

namespace Endpoint

variable {ep : Endpoint} {m m' : Machine} {letter : Letter} {flags : SendFlags}

theorem steady_unlessFault {α : Type} {op : EndpointOp} {answer : Except ChannelError α}
    {run : Machine → Except ChannelError α × Machine} (keeps : ∀ m : Machine, m.Steady (run m).2)
    (ran : ep.unlessFault op m run = (answer, m')) : m.Steady m' := by
  have steady := m.steady_nextFault (.endpoint ep.home op)
  unfold unlessFault at ran
  rcases taken : m.nextFault (.endpoint ep.home op) with ⟨_ | e, m₁⟩ <;> rw [taken] at steady ran
  · have moved : (run m₁).2 = m' := congrArg Prod.snd ran
    rw [← moved]
    exact steady.trans (keeps m₁)
  · have moved : m₁ = m' := congrArg Prod.snd ran
    rw [← moved]
    exact steady

theorem steady_send {answer : Except ChannelError Unit}
    (ran : ep.send flags letter m = (answer, m')) : m.Steady m' := by
  refine steady_unlessFault (fun m => ?_) ran
  cases ep.peer with
  | none => exact .refl m
  | some peer =>
      refine Machine.steady_onKernel fun _ kernel queued => ?_
      simp only [Kernel.enqueue] at queued
      cases held : m.kernel.queues.get? peer with
      | none => simp [held, Except.map] at queued
      | some queue =>
          by_cases full : queue.length ≥ m.kernel.depth
          · simp [held, full, Except.map] at queued
          · simp only [held, if_neg full, Except.map, Except.ok.injEq, Prod.mk.injEq] at queued
            rw [← queued.2]
            exact ⟨rfl, UInt32.le_refl _⟩

theorem steady_recv {answer : Except ChannelError Letter} (ran : ep.recv m = (answer, m')) :
    m.Steady m' := by
  refine steady_unlessFault (fun m => ?_) ran
  refine Machine.steady_onKernel fun _ kernel taken => ?_
  unfold Kernel.dequeue at taken
  split at taken
  · cases taken
  · cases taken
  · cases taken
    exact ⟨rfl, UInt32.le_refl _⟩

theorem steady_allocRecvSlot {answer : Except ChannelError Unit}
    (ran : ep.allocRecvSlot m = (answer, m')) : m.Steady m' := by
  refine steady_unlessFault (fun m => ?_) ran
  refine Machine.steady_onKernel fun _ kernel granted => ?_
  unfold Kernel.allocRecvSlot Kernel.allocSlot at granted
  by_cases last : m.kernel.nextSlot = 0xffffffff
  · simp [last, bind, Except.bind, Except.map] at granted
  · simp only [if_neg last, bind, Except.bind, Except.map, pure, Except.pure, Except.ok.injEq,
      Prod.mk.injEq, true_and] at granted
    rw [← granted]
    exact ⟨rfl, Kernel.slot_le_succ last⟩

theorem steady_register {answer : Except ChannelError Endpoint}
    (ran : ep.register m = (answer, m')) : m.Steady m' :=
  steady_unlessFault .refl ran

end Endpoint

end Conduit

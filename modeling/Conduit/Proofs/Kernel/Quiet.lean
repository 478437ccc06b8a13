/-
# A machine without faults

On a machine for which no fault is planned (`Machine.Quiet`), an operation is refused by the
kernel or not at all. What such an operation costs is slots: `Machine.Room` says how many can
still be handed out, and `Machine.Spends` that memory and frames stay and how many were used.
-/

import Conduit.Proofs.Kernel.Queues

namespace Conduit

namespace Machine

/-- No fault is planned. -/
def Quiet (m : Machine) : Prop := ∀ site, (m.faults.get? site).getD [] = []

/-- This many slots can still be handed out. -/
def Room (m : Machine) (slots : Nat) : Prop := m.kernel.nextSlot.toNat + slots ≤ 0xffffffff

/-- Memory and frames are the same, and at most this many slots were handed out. -/
structure Spends (m m' : Machine) (slots : Nat) : Prop where
  memory : m'.memory = m.memory
  frames : m'.kernel.frames = m.kernel.frames
  slots : m'.kernel.nextSlot.toNat ≤ m.kernel.nextSlot.toNat + slots

variable {m m' : Machine} {n k : Nat}

theorem Quiet.nextFault (quiet : m.Quiet) (site : FaultSite) : m.nextFault site = (none, m) := by
  have plan := quiet site
  unfold Machine.nextFault
  cases planned : m.faults.get? site with
  | none => rfl
  | some entries =>
      rw [planned, Option.getD_some] at plan
      rw [plan]

theorem Quiet.spares (quiet : m.Quiet) (cap : Cap) (op : EndpointOp) : m.Spares cap op :=
  quiet.nextFault _

theorem Room.mono (room : m.Room n) (fewer : k ≤ n) : m.Room k :=
  Nat.le_trans (Nat.add_le_add_left fewer _) room

theorem room_congr (same : m'.kernel.nextSlot = m.kernel.nextSlot) : m'.Room n ↔ m.Room n := by
  unfold Room
  rw [same]

theorem Room.slot_ne (room : m.Room 1) : m.kernel.nextSlot ≠ 0xffffffff := by
  intro last
  unfold Room at room
  rw [last] at room
  exact absurd room (by decide)

theorem room_of_slot_ne (left : m.kernel.nextSlot ≠ 0xffffffff) : m.Room 1 := by
  have below := m.kernel.nextSlot.toNat_lt
  have ne : m.kernel.nextSlot.toNat ≠ 0xffffffff := fun same => left (UInt32.toNat_inj.mp same)
  unfold Room
  omega

theorem toNat_nextSlot_succ (room : m.Room 1) :
    (m.kernel.nextSlot + 1).toNat = m.kernel.nextSlot.toNat + 1 := by
  unfold Room at room
  rw [UInt32.toNat_add]
  exact Nat.mod_eq_of_lt (by change _ + 1 < _; omega)

theorem Spends.trans {m'' : Machine} (first : m.Spends m' n) (later : m'.Spends m'' k) :
    m.Spends m'' (n + k) where
  memory := later.memory.trans first.memory
  frames := later.frames.trans first.frames
  slots := by
    have before := first.slots
    have after := later.slots
    omega

theorem Spends.mono (spends : m.Spends m' n) (more : n ≤ k) : m.Spends m' k :=
  { spends with slots := Nat.le_trans spends.slots (Nat.add_le_add_left more _) }

theorem spends_posted {cap : Cap} {queue : List Letter} {flags : SendFlags} :
    m.Spends (m.posted cap queue flags) 0 := ⟨rfl, rfl, Nat.le_refl _⟩

theorem spends_fetched {cap : Cap} {queue : List Letter} : m.Spends (m.fetched cap queue) 0 :=
  ⟨rfl, rfl, Nat.le_refl _⟩

end Machine

end Conduit

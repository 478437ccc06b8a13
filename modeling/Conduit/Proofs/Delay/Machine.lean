/-
# More refusals for the moment

`Machine.Delayed home n m late` says that the machine `late` is `m`, but that sending and
receiving at the endpoint `home` are refused for the moment `n` more times, at any uses of
the two operations. A use that is refused reaches nothing and leaves one refusal less; any
other use of the machine answers as it does on `m` and leaves as many (`nextFault_cases`).
Uses that no plan for these two operations can reach are `Heedless`.
-/

import Conduit.Endpoint
import Conduit.SlotChannel
import Mathlib.Tactic.Common

namespace Conduit

/-- The second plan refuses for the moment this many more times than the first. -/
inductive FaultPlan.Delayed : Nat → FaultPlan → FaultPlan → Prop
  | nil : Delayed 0 [] []
  | refuse {n : Nat} {plan late : FaultPlan} :
      Delayed n plan late → Delayed (n + 1) plan (some .transient :: late)
  | keep {n : Nat} {entry : Option ChannelError} {plan late : FaultPlan} :
      Delayed n plan late → Delayed n (entry :: plan) (entry :: late)
  | pass {n : Nat} {late : FaultPlan} : Delayed n [] late → Delayed n [] (none :: late)

/-- The next use is refused, or it meets what it meets in the first plan. -/
theorem FaultPlan.Delayed.next {n : Nat} {plan late : FaultPlan}
    (delayed : FaultPlan.Delayed n plan late) :
    (∃ n' rest, n = n' + 1 ∧ late = some .transient :: rest ∧ FaultPlan.Delayed n' plan rest) ∨
      late.headD none = plan.headD none ∧ FaultPlan.Delayed n plan.tail late.tail := by
  cases delayed with
  | nil => exact .inr ⟨rfl, .nil⟩
  | refuse delayed => exact .inl ⟨_, _, rfl, rfl, delayed⟩
  | keep delayed => exact .inr ⟨rfl, delayed⟩
  | pass delayed => exact .inr ⟨rfl, delayed⟩

theorem FaultPlan.Delayed.refl (plan : FaultPlan) : FaultPlan.Delayed 0 plan plan := by
  induction plan with
  | nil => exact .nil
  | cons entry plan ih => exact .keep ih

theorem FaultPlan.Delayed.replicate (n : Nat) (plan : FaultPlan) :
    FaultPlan.Delayed n plan (List.replicate n (some .transient) ++ plan) := by
  induction n with
  | zero => exact .refl plan
  | succ n ih => exact .refuse ih

namespace Machine

variable {home : Cap} {n : Nat} {m m' late late' : Machine}

/-- What is planned for an operation. -/
def plan (m : Machine) (site : FaultSite) : FaultPlan := (m.faults.get? site).getD []

theorem nextFault_eq (m : Machine) (site : FaultSite) :
    (m.nextFault site).1 = (m.plan site).headD none ∧
      (m.nextFault site).2 = { m with faults := (m.nextFault site).2.faults } ∧
      ∀ other, (m.nextFault site).2.plan other =
        if site = other then (m.plan site).tail else m.plan other := by
  have unplanned (none : m.plan site = []) (other : FaultSite) :
      m.plan other = if site = other then (m.plan site).tail else m.plan other := by
    by_cases same : site = other
    · rw [if_pos same, ← same, none]
      rfl
    · rw [if_neg same]
  unfold nextFault
  cases planned : m.faults.get? site with
  | none =>
      have plan : m.plan site = [] := by rw [Machine.plan, planned, Option.getD_none]
      exact ⟨by rw [plan]; rfl, rfl, unplanned plan⟩
  | some entries =>
      have plan : m.plan site = entries := by rw [Machine.plan, planned, Option.getD_some]
      cases entries with
      | nil => exact ⟨by rw [plan]; rfl, rfl, unplanned plan⟩
      | cons entry rest =>
          refine ⟨by rw [plan]; rfl, rfl, fun other => ?_⟩
          rw [plan]
          unfold Machine.plan
          simp only [Table.get?_insert]
          by_cases same : site = other
          · rw [if_pos same, if_pos same]
            rfl
          · rw [if_neg same, if_neg same]

/-- The operations that may be refused for the moment more often. -/
def Refusable (home : Cap) (site : FaultSite) : Prop :=
  site = .endpoint home .send ∨ site = .endpoint home .recv

/-- One refusal less for one of the two operations is one less in all. -/
theorem sum_update {counts : FaultSite → Nat} {site : FaultSite} {k : Nat}
    (refusable : Refusable home site) (count : counts site = k + 1) :
    counts (.endpoint home .send) + counts (.endpoint home .recv) =
      Function.update counts site k (.endpoint home .send) +
        Function.update counts site k (.endpoint home .recv) + 1 := by
  rcases refusable with rfl | rfl
  · rw [Function.update_self, Function.update_of_ne (by simp), count]
    omega
  · rw [Function.update_self, Function.update_of_ne (by simp), count]
    omega

/-- The second machine is the first one, but sending and receiving at an endpoint are
refused for the moment this many more times. -/
structure Delayed (home : Cap) (n : Nat) (m late : Machine) : Prop where
  same : late = { m with faults := late.faults }
  elsewhere : ∀ site, ¬ Refusable home site → late.plan site = m.plan site
  delays : ∃ counts : FaultSite → Nat,
    n = counts (.endpoint home .send) + counts (.endpoint home .recv) ∧
    ∀ site, Refusable home site → FaultPlan.Delayed (counts site) (m.plan site) (late.plan site)

theorem Delayed.refl (m : Machine) : Delayed home 0 m m :=
  ⟨rfl, fun _ _ => rfl, fun _ => 0, rfl, fun site _ => .refl (m.plan site)⟩

/-- The machine refuses an operation for the moment this many times, and then goes on with what
is planned for it. -/
def refusing (m : Machine) (site : FaultSite) (n : Nat) : Machine :=
  { m with faults := m.faults.insert site (List.replicate n (some .transient) ++ m.plan site) }

theorem plan_refusing (m : Machine) (site other : FaultSite) (n : Nat) :
    (m.refusing site n).plan other =
      if site = other then List.replicate n (some .transient) ++ m.plan site else m.plan other := by
  unfold refusing
  conv => lhs; unfold Machine.plan
  rw [Table.get?_insert]
  by_cases same : site = other
  · rw [if_pos same, if_pos same]
    rfl
  · rw [if_neg same, if_neg same]
    rfl

theorem delayed_refusing {site : FaultSite} (refusable : Refusable home site) (m : Machine)
    (n : Nat) : Delayed home n m (m.refusing site n) := by
  refine ⟨rfl, fun other away => ?_, Function.update (fun _ => 0) site n, ?_, fun other _ => ?_⟩
  · rw [plan_refusing, if_neg fun same : site = other => away (same ▸ refusable)]
  · rcases refusable with rfl | rfl
    · rw [Function.update_self, Function.update_of_ne (by simp), Nat.add_zero]
    · rw [Function.update_self, Function.update_of_ne (by simp), Nat.zero_add]
  · rw [plan_refusing]
    by_cases same : site = other
    · subst same
      rw [if_pos rfl, Function.update_self]
      exact .replicate n _
    · rw [if_neg same, Function.update_of_ne (Ne.symm same)]
      exact .refl _

namespace Delayed

variable (delayed : Delayed home n m late)

include delayed

theorem kernel : late.kernel = m.kernel := by rw [delayed.same]

theorem memory : late.memory = m.memory := by rw [delayed.same]

theorem bells : late.bells = m.bells := by rw [delayed.same]

/-- Whatever is done to the rest of the machine, the refusals are still to come. -/
theorem congr (faults : m'.faults = m.faults)
    (same : late' = { m' with faults := late.faults }) : Delayed home n m' late' := by
  have plan : ∀ site, m'.plan site = m.plan site := fun site => by
    unfold Machine.plan
    rw [faults]
  have plan' : ∀ site, late'.plan site = late.plan site := fun site => by
    unfold Machine.plan
    rw [same]
  constructor
  · rw [same]
  · intro site other
    rw [plan, plan']
    exact delayed.elsewhere site other
  · simp only [plan, plan']
    exact delayed.delays

/-- What is planned for an operation: one refusal more, or the same for its next use. -/
theorem plan_cases {counts : FaultSite → Nat} (delays : ∀ site, Refusable home site →
      FaultPlan.Delayed (counts site) (m.plan site) (late.plan site)) (site : FaultSite) :
    (∃ k tail, counts site = k + 1 ∧ Refusable home site ∧
        late.plan site = some .transient :: tail ∧ FaultPlan.Delayed k (m.plan site) tail) ∨
      (late.plan site).headD none = (m.plan site).headD none ∧
        (Refusable home site →
          FaultPlan.Delayed (counts site) (m.plan site).tail (late.plan site).tail) ∧
        (¬ Refusable home site → (late.plan site).tail = (m.plan site).tail) := by
  by_cases refusable : Refusable home site
  · rcases (delays site refusable).next with ⟨k, tail, count, head, fewer⟩ | ⟨head, equal⟩
    · exact .inl ⟨k, tail, count, refusable, head, fewer⟩
    · exact .inr ⟨head, fun _ => equal, fun not => absurd refusable not⟩
  · have same := delayed.elsewhere site refusable
    exact .inr ⟨by rw [same], fun yes => absurd yes refusable, fun _ => by rw [same]⟩

/-- A use of an operation is refused, or meets what is planned for it on the first
machine. -/
theorem nextFault_cases (site : FaultSite) :
    (∃ n' late', n = n' + 1 ∧ Refusable home site ∧
        late.nextFault site = (some .transient, late') ∧ Delayed home n' m late') ∨
      ∃ late', late.nextFault site = ((m.nextFault site).1, late') ∧
        Delayed home n (m.nextFault site).2 late' := by
  obtain ⟨answer, same, plan⟩ := m.nextFault_eq site
  obtain ⟨answer', same', plan'⟩ := late.nextFault_eq site
  obtain ⟨counts, rfl, delays⟩ := delayed.delays
  have rest : (late.nextFault site).2 =
      { m with faults := (late.nextFault site).2.faults } := by
    rw [same', delayed.kernel, delayed.memory, delayed.bells]
  rcases delayed.plan_cases delays site with
    ⟨k, tail, count, refusable, head, fewer⟩ | ⟨head, equal, elsewhere⟩
  · refine .inl ⟨_, _, sum_update refusable count, refusable, Prod.ext ?_ rfl, rest,
      fun other away => ?_, _, rfl, fun other either => ?_⟩
    · rw [answer', head]
      rfl
    · rw [plan', if_neg fun same : site = other => away (same ▸ refusable)]
      exact delayed.elsewhere other away
    · rw [plan']
      by_cases here : site = other
      · subst here
        rw [if_pos rfl, Function.update_self, head]
        exact fewer
      · rw [if_neg here, Function.update_of_ne (Ne.symm here)]
        exact delays other either
  · have rest' : (late.nextFault site).2 =
        { (m.nextFault site).2 with faults := (late.nextFault site).2.faults } := by
      rw [same]
      exact rest
    refine .inr ⟨_, Prod.ext ?_ rfl, rest', fun other away => ?_, counts, rfl,
      fun other either => ?_⟩
    · rw [answer, answer', head]
    · rw [plan, plan']
      by_cases here : site = other
      · subst here
        rw [if_pos rfl, if_pos rfl]
        exact elsewhere away
      · rw [if_neg here, if_neg here]
        exact delayed.elsewhere other away
    · rw [plan, plan']
      by_cases here : site = other
      · subst here
        rw [if_pos rfl, if_pos rfl]
        exact equal either
      · rw [if_neg here, if_neg here]
        exact delays other either

end Delayed

/-! ### Uses that are not refused -/

/-- The use of the machine answers the same however often sending and receiving are still
refused, and leaves as many refusals. -/
def Heedless {α : Type} (home : Cap) (use : Machine → α × Machine) : Prop :=
  ∀ n m late, Delayed home n m late →
    ∃ late', use late = ((use m).1, late') ∧ Delayed home n (use m).2 late'

/-- The use of the machine is refused once more, which leaves all else as it is, or it answers
the same and leaves as many refusals. -/
def Retriable {α : Type} (home : Cap) (use : Machine → Except ChannelError α × Machine) : Prop :=
  ∀ n m late, Delayed home n m late →
    (∃ n' late', n = n' + 1 ∧ use late = (.error .transient, late') ∧ Delayed home n' m late') ∨
      ∃ late', use late = ((use m).1, late') ∧ Delayed home n (use m).2 late'

theorem heedless_onKernel {α : Type} (op : Kernel → Except ChannelError (α × Kernel)) :
    Heedless home fun m => m.onKernel op := by
  intro n m late delayed
  simp only [onKernel, delayed.kernel]
  cases op m.kernel with
  | error e => exact ⟨late, rfl, delayed⟩
  | ok result => exact ⟨_, rfl, delayed.congr rfl (by rw [delayed.memory, delayed.bells])⟩

theorem heedless_callMapFrame (cap : Cap) : Heedless home (·.callMapFrame cap) := by
  intro n m late delayed
  simp only [callMapFrame]
  rcases delayed.nextFault_cases (.allocator .mapFrame) with
    ⟨n', late', -, refusable, -⟩ | ⟨late', same, delayed'⟩
  · rcases refusable with same | same <;> cases same
  · rw [same]
    rcases met : m.nextFault (.allocator .mapFrame) with ⟨_ | e, m'⟩
    · rw [met] at delayed'
      exact ⟨late', by simp only [delayed'.kernel], delayed'⟩
    · rw [met] at delayed'
      exact ⟨late', rfl, delayed'⟩

/-- Allocating a frame answers the same, unless it ends everything. -/
theorem Delayed.callAllocFrame {bytes : Nat} {answer : Except ChannelError Cap}
    (delayed : Delayed home n m late) (allocated : m.callAllocFrame bytes = .ok (answer, m')) :
    ∃ late', late.callAllocFrame bytes = .ok (answer, late') ∧ Delayed home n m' late' := by
  unfold Machine.callAllocFrame at allocated ⊢
  rcases delayed.nextFault_cases (.allocator .allocFrame) with
    ⟨n', late', -, refusable, -⟩ | ⟨late', same, delayed'⟩
  · rcases refusable with same | same <;> cases same
  · rw [same]
    rcases met : m.nextFault (.allocator .allocFrame) with ⟨_ | e, m₁⟩
    · rw [met] at delayed' allocated
      simp only at delayed' allocated ⊢
      unfold allocFrame at allocated ⊢
      rw [delayed'.kernel, delayed'.memory]
      cases slot : m₁.kernel.allocSlot with
      | error e =>
          rw [slot] at allocated
          cases allocated
          exact ⟨late', rfl, delayed'⟩
      | ok named =>
          rw [slot] at allocated
          obtain ⟨placed, made, allocated⟩ := of_bind_ok allocated
          cases allocated
          simp only [made]
          exact ⟨_, rfl, delayed'.congr rfl (by rw [delayed'.bells])⟩
    · rw [met] at delayed' allocated
      cases allocated
      exact ⟨late', rfl, delayed'⟩

end Machine

namespace Endpoint

variable {home : Cap} {n : Nat} {m late : Machine} (ep : Endpoint)

open Machine

/-- An operation of an endpoint is refused, or answers the same. -/
theorem unlessFault_cases {α : Type} {run : Machine → Except ChannelError α × Machine}
    (heedless : Heedless home run) (delayed : Delayed home n m late) (op : EndpointOp) :
    (∃ n' late', n = n' + 1 ∧ Refusable home (.endpoint ep.home op) ∧
        ep.unlessFault op late run = (.error .transient, late') ∧ Delayed home n' m late') ∨
      ∃ late', ep.unlessFault op late run = ((ep.unlessFault op m run).1, late') ∧
        Delayed home n (ep.unlessFault op m run).2 late' := by
  unfold unlessFault
  rcases delayed.nextFault_cases (.endpoint ep.home op) with
    ⟨n', late', count, refusable, refused, fewer⟩ | ⟨late', same, delayed'⟩
  · rw [refused]
    exact .inl ⟨n', late', count, refusable, rfl, fewer⟩
  · rw [same]
    rcases met : m.nextFault (.endpoint ep.home op) with ⟨_ | e, m'⟩
    · rw [met] at delayed'
      exact .inr (heedless n m' late' delayed')
    · rw [met] at delayed'
      exact .inr ⟨late', rfl, delayed'⟩

theorem heedless_unlessFault {α : Type} {run : Machine → Except ChannelError α × Machine}
    (heedless : Heedless home run) {op : EndpointOp}
    (sure : ¬ Refusable home (.endpoint ep.home op)) :
    Heedless home fun m => ep.unlessFault op m run := by
  intro n m late delayed
  rcases ep.unlessFault_cases heedless delayed op with ⟨n', late', -, refusable, -⟩ | answered
  · exact absurd refusable sure
  · exact answered

theorem heedless_allocRecvSlot : Heedless home ep.allocRecvSlot := by
  refine ep.heedless_unlessFault (heedless_onKernel _) ?_
  rintro (same | same) <;> cases same

theorem heedless_register : Heedless home ep.register := by
  refine ep.heedless_unlessFault (fun n m late delayed => ⟨late, rfl, delayed⟩) ?_
  rintro (same | same) <;> cases same

theorem canRecv_delayed (delayed : Delayed home n m late) : ep.canRecv late = ep.canRecv m := by
  unfold canRecv
  rw [delayed.kernel]

theorem takeEvent_delayed (delayed : Delayed home n m late) :
    ep.takeEvent late = ep.takeEvent m := by
  unfold takeEvent
  rw [ep.canRecv_delayed delayed]

theorem heedless_deliver (flags : SendFlags) (letter : Letter) :
    Heedless home fun m : Machine => match ep.peer with
      | none => ((.error .notConnected : Except ChannelError Unit), m)
      | some peer => m.onKernel_ fun k => k.enqueue peer letter flags := by
  cases ep.peer with
  | none => exact fun n m late delayed => ⟨late, rfl, delayed⟩
  | some peer => exact heedless_onKernel _

theorem retriable_send (flags : SendFlags) (letter : Letter) :
    Retriable home (ep.send flags letter) := by
  intro n m late delayed
  rcases ep.unlessFault_cases (ep.heedless_deliver flags letter) delayed .send with
    ⟨n', late', count, -, refused, fewer⟩ | answered
  · exact .inl ⟨n', late', count, refused, fewer⟩
  · exact .inr answered

/-- Another endpoint sends as it always does. -/
theorem heedless_send (apart : ep.home ≠ home) (flags : SendFlags) (letter : Letter) :
    Heedless home (ep.send flags letter) := by
  refine ep.heedless_unlessFault (ep.heedless_deliver flags letter) ?_
  rintro (same | same)
  · cases same
    exact apart rfl
  · cases same

theorem retriable_recv : Retriable home ep.recv := by
  intro n m late delayed
  rcases ep.unlessFault_cases (heedless_onKernel _) delayed .recv with
    ⟨n', late', count, -, refused, fewer⟩ | answered
  · exact .inl ⟨n', late', count, refused, fewer⟩
  · exact .inr answered

/-- Another endpoint receives as it always does. -/
theorem heedless_recv (apart : ep.home ≠ home) : Heedless home ep.recv := by
  refine ep.heedless_unlessFault (heedless_onKernel _) ?_
  rintro (same | same)
  · cases same
  · cases same
    exact apart rfl

end Endpoint

/-! ### Shared memory -/

namespace SlotChannel

variable {home : Cap} {n : Nat} {m m' late : Machine} (c : SlotChannel)

open Machine

variable (delayed : Delayed home n m late)

include delayed

theorem canReceive_delayed : c.canReceive late = c.canReceive m := by
  unfold canReceive
  rw [delayed.memory]

theorem takeNotification_delayed {rung : Bool} (taken : c.takeNotification m = .ok (rung, m')) :
    ∃ late', c.takeNotification late = .ok (rung, late') ∧ Delayed home n m' late' := by
  unfold takeNotification at taken ⊢
  cases bell : c.localBell with
  | some bell =>
      simp only [bell] at taken ⊢
      cases taken
      rw [delayed.bells]
      exact ⟨_, rfl, delayed.congr rfl (by rw [delayed.kernel, delayed.memory])⟩
  | none =>
      simp only [bell] at taken ⊢
      rw [c.canReceive_delayed delayed]
      cases waiting : c.canReceive m with
      | error cause =>
          rw [waiting] at taken
          cases taken
      | ok waits =>
          rw [waiting] at taken
          cases taken
          exact ⟨late, rfl, delayed⟩

theorem receive_delayed {limit : Nat} {words : Option (List UInt64)} {c' : SlotChannel}
    (received : c.receive limit m = .ok (words, c', m')) :
    ∃ late', c.receive limit late = .ok (words, c', late') ∧ Delayed home n m' late' := by
  unfold receive at received ⊢
  rw [delayed.memory]
  obtain ⟨flag, loaded, received⟩ := of_bind_ok received
  simp only [bind, Except.bind, loaded]
  split at received
  case isTrue sent =>
    obtain ⟨payload, read, received⟩ := of_bind_ok received
    obtain ⟨memory, stored, received⟩ := of_bind_ok received
    cases received
    simp only [if_pos sent, read, stored]
    exact ⟨_, rfl, delayed.congr rfl (by rw [delayed.kernel, delayed.bells])⟩
  case isFalse sent =>
    cases received
    simp only [if_neg sent]
    exact ⟨late, rfl, delayed⟩

theorem send_delayed {payload : List UInt64} {sent : Except Error Bool} {c' : SlotChannel}
    (ran : c.send payload m = .ok (sent, c', m')) :
    ∃ late', c.send payload late = .ok (sent, c', late') ∧ Delayed home n m' late' := by
  unfold send at ran ⊢
  by_cases long : payload.length > c.payloadWords
  · rw [if_pos long] at ran ⊢
    cases ran
    exact ⟨late, rfl, delayed⟩
  · rw [if_neg long] at ran ⊢
    rw [delayed.memory, delayed.bells]
    obtain ⟨flag, loaded, ran⟩ := of_bind_ok ran
    simp only [bind, Except.bind, loaded]
    split at ran
    case isTrue isOpen =>
      obtain ⟨filled, stored, ran⟩ := of_bind_ok ran
      obtain ⟨memory, flagged, ran⟩ := of_bind_ok ran
      cases ran
      simp only [if_pos isOpen, stored, flagged]
      exact ⟨_, rfl, delayed.congr rfl (by rw [delayed.kernel])⟩
    case isFalse isOpen =>
      cases ran
      simp only [if_neg isOpen]
      exact ⟨late, rfl, delayed⟩

end SlotChannel

end Conduit

/-
# Receive slots in balance

A party that takes a letter with a capability provides a new receive slot at once. `Counted` counts
the letters with a capability that are taken, by a way to take letters that counts them
(`Endpoint.takeCounted`), and the parties that are founded over endpoints. `Settled` says that the
receive slots handed out since a scene are those that the counts ask for, but for some that are
still owed. Only when no slot is left to be handed out, nothing is said any more. However
receiving ends, it owes nothing more than before (`Transport.replenishes_receive`), and so the same
holds of whatever a party or a stream does (`Rpc.replenishes_perform`, `Stream.replenishes_run`).
-/

import Conduit.Proofs.Replenish.Parametric

namespace Conduit

variable {δ ε η α β : Type}

/-! ### Counting what is taken -/

/-- The others, and what is counted beside them. -/
structure Counted (ε : Type) where
  /-- How many parties were founded over an endpoint. -/
  founded : Nat
  /-- How many letters with a capability were taken. -/
  taken : Nat
  /-- The others. -/
  rest : ε

/-- How many receive slots an answer of the kernel asks for. -/
def Letter.due : Except ChannelError Letter → Nat
  | .ok letter => if letter.cap.isSome then 1 else 0
  | .error _ => 0

/-- The counts after an answer of the kernel. -/
def Counted.enter (others : Counted ε) (answer : Except ChannelError Letter) : Counted ε :=
  { others with taken := others.taken + Letter.due answer }

/-- Asks the endpoint for a letter, and counts the letter if it carries a capability. -/
def Endpoint.takeCounted (ep : Endpoint) :
    Task Transport (Counted ε) (Except ChannelError Letter) := do
  let answer ← Task.asking ep.recv
  modify fun now => { now with scene.others := now.scene.others.enter answer }
  return answer

/-- The number of receive slots that the counts ask for. -/
def Counted.asked (others : Counted ε) : Nat := others.founded + others.taken

/-- As long as a slot is left, the receive slots handed out since a scene, and those that are
still owed, are as many as the counts ask for since then. -/
structure Settled (owed : Nat) (start scene : Scene (Counted ε)) : Prop where
  quiet : scene.machine.Quiet
  slots : start.machine.kernel.nextSlot ≤ scene.machine.kernel.nextSlot
  balance : scene.machine.kernel.nextSlot ≠ 0xffffffff →
    scene.machine.kernel.recvSlots + owed + start.others.asked =
      start.machine.kernel.recvSlots + scene.others.asked

namespace Settled

variable {owed : Nat} {start mid scene : Scene (Counted ε)} {m : Machine}

theorem refl (quiet : scene.machine.Quiet) : Settled 0 scene scene :=
  ⟨quiet, UInt32.le_refl _, fun _ => rfl⟩

theorem trans (first : Settled owed start mid) (later : Settled 0 mid scene) :
    Settled owed start scene where
  quiet := later.quiet
  slots := UInt32.le_trans first.slots later.slots
  balance := by
    intro left
    have before := first.balance (Kernel.slot_left later.slots left)
    have after := later.balance left
    omega

/-- Where no receive slot is handed out, what the counts ask for is owed. -/
theorem neutral {owed' : Nat} {others : Counted ε} (settled : Settled owed start scene)
    (neutral : scene.machine.Neutral m)
    (asked : others.asked + owed = scene.others.asked + owed') :
    Settled owed' start ⟨m, others⟩ where
  quiet := settled.quiet.congr neutral.faults
  slots := UInt32.le_trans settled.slots neutral.slots
  balance := by
    intro left
    have before := settled.balance (Kernel.slot_left neutral.slots left)
    have same := neutral.recvSlots
    simp only [same]
    omega

/-- A letter with a capability that was taken is owed for. -/
theorem taken (settled : Settled 0 start scene) (neutral : scene.machine.Neutral m)
    (answer : Except ChannelError Letter) :
    Settled (Letter.due answer) start ⟨m, scene.others.enter answer⟩ := by
  apply settled.neutral neutral
  simp only [Counted.asked, Counted.enter]
  omega

/-- A new receive slot makes up for one that is owed, unless no slot is left. -/
theorem granted (settled : Settled (owed + 1) start scene) (ep : Endpoint) :
    Settled owed start ⟨(ep.allocRecvSlot scene.machine).2, scene.others⟩ := by
  rcases Endpoint.allocRecvSlot_quiet settled.quiet ep with
    ⟨last, refused⟩ | ⟨m, answered, left, faults, slots, recvSlots⟩
  · rw [refused]
    exact ⟨settled.quiet, settled.slots, fun left => absurd last left⟩
  · rw [answered]
    constructor
    · exact settled.quiet.congr faults
    · rw [slots]
      exact UInt32.le_trans settled.slots (Kernel.slot_le_succ left)
    · intro _
      have before := settled.balance left
      simp only [recvSlots]
      omega

end Settled

/-! ### Tasks that keep the balance -/

/-- The turn keeps the balance wherever no fault is planned. -/
def Turn.Balanced (turn : Turn (Counted ε)) : Prop :=
  ∀ scene, scene.machine.Quiet → Settled 0 scene (turn.after scene)

/-- The receive slots are settled but for those that are owed, and only turns among these are to
come. -/
structure InBalance (turns : List (Turn (Counted ε))) (owed : Nat) (start : Scene (Counted ε))
    (now : Moment δ (Counted ε)) : Prop where
  settled : Settled owed start now.scene
  among : now.turns ⊆ turns

/-- However the task ends, nothing more is owed than before. -/
def Task.Replenishes (turns : List (Turn (Counted ε))) (start : Scene (Counted ε))
    (task : Task δ (Counted ε) α) : Prop :=
  Task.Keeps (InBalance turns 0 start) task

namespace InBalance

variable {turns : List (Turn (Counted ε))} {owed : Nat} {start : Scene (Counted ε)}
  {now : Moment δ (Counted ε)} {m : Machine}

/-- Nothing but the machine was used, and it handed out no receive slot. -/
theorem aside (balance : InBalance turns owed start now) (neutral : now.scene.machine.Neutral m)
    (d : δ) : InBalance turns owed start (⟨d, ⟨m, now.scene.others⟩, now.turns⟩ : Moment δ _) :=
  ⟨balance.settled.neutral neutral rfl, balance.among⟩

end InBalance

namespace Task.Replenishes

variable {turns : List (Turn (Counted ε))} {start : Scene (Counted ε)}

/-- A use of the machine that hands out no receive slot and may end everything. -/
theorem update {use : Machine → Except Panic α} {after : Machine → α → Machine}
    {next : α → Task δ (Counted ε) β}
    (neutral : ∀ m a, m.Quiet → use m = .ok a → m.Neutral (after m a))
    (later : ∀ a, Replenishes turns start (next a)) :
    Replenishes turns start (Task.machine >>= fun m => Task.orPanic (use m) >>= fun a =>
      Task.setMachine (after m a) >>= fun _ => next a) := by
  intro now balance
  rw [Task.machine_bind]
  cases used : use now.scene.machine with
  | error cause => exact balance
  | ok a => exact later a _ (balance.aside (neutral _ a balance.settled.quiet used) now.self)

theorem setSelf (d : δ) :
    Replenishes turns start (Task.setSelf d : Task δ (Counted ε) Unit) :=
  fun _ balance => ⟨balance.settled, balance.among⟩

theorem within {part : δ → β} {setPart : β → δ → δ} {task : Task β (Counted ε) α}
    (replenishes : Replenishes turns start task) :
    Replenishes turns start (Task.within part setPart task) := by
  intro now balance
  apply ends_within
  exact (replenishes ⟨part now.self, now.scene, now.turns⟩ ⟨balance.settled, balance.among⟩).mono
    (fun _ _ kept => ⟨kept.settled, kept.among⟩) fun _ _ kept => ⟨kept.settled, kept.among⟩

/-- A turn of the others keeps the balance, whether or not it ends everything. -/
theorem pause (lawful : ∀ turn ∈ turns, turn.Balanced) :
    Replenishes turns start (Task.pause : Task δ (Counted ε) Unit) := by
  intro now balance
  have next : ∀ {turn rest}, now.turns = turn :: rest →
      InBalance turns 0 start { now with scene := turn.after now.scene, turns := rest } := by
    intro turn rest coming
    have among : turn :: rest ⊆ turns := coming ▸ balance.among
    have kept := lawful turn (among List.mem_cons_self) now.scene balance.settled.quiet
    exact ⟨balance.settled.trans kept, fun _ mem => among (List.mem_cons_of_mem _ mem)⟩
  refine ends_turn ?_ ?_ ?_
  · exact fun _ => balance
  · exact fun _ _ _ coming passed => Turn.after_ok passed ▸ next coming
  · exact fun _ _ _ _ coming halted => Turn.after_error halted ▸ next coming

end Task.Replenishes

/-! ### Receiving -/

variable {turns : List (Turn (Counted ε))} {start : Scene (Counted ε)}

namespace Endpoint

/-- A letter that is taken is counted. -/
theorem ends_takeCounted (ep : Endpoint) {now : Moment Transport (Counted ε)}
    (balance : InBalance turns 0 start now) :
    Task.Ends (ep.takeCounted now) (fun answer now => InBalance turns (Letter.due answer) start now)
      fun _ now => InBalance turns 0 start now := by
  unfold takeCounted
  rw [Task.asking_bind]
  exact ⟨balance.settled.taken (ep.neutral_recv balance.settled.quiet) _, balance.among⟩

/-- One receive slot that is owed is provided, unless no slot is left. -/
theorem ends_provide (ep : Endpoint) {now : Moment δ (Counted ε)}
    (balance : InBalance turns 1 start now) :
    Task.Ends (Task.request ep.allocRecvSlot now) (fun _ now => InBalance turns 0 start now)
      fun _ now => InBalance turns 0 start now := by
  have settled : Settled 0 start ⟨(ep.allocRecvSlot now.scene.machine).2, now.scene.others⟩ :=
    balance.settled.granted ep
  unfold Task.request
  rw [Task.asking_bind]
  cases (ep.allocRecvSlot now.scene.machine).1 with
  | ok u => exact ⟨settled, balance.among⟩
  | error e => exact ⟨settled, balance.among⟩

end Endpoint

section Lawful

variable (lawful : ∀ turn ∈ turns, turn.Balanced)

include lawful

/-- Owing nothing more is a matter of the parts of a task. -/
theorem parametric_replenishes : Task.Parametric
    fun {δ α : Type} (task : Task δ (Counted ε) α) (_ : Task δ (Counted ε) α) =>
      task.Replenishes turns start where
  pure a := Task.Keeps.pure a
  fail e := Task.Keeps.fail e
  halt _ _ balance := balance
  bind first later := Task.Keeps.bind first later
  settle related := Task.Keeps.settle related
  within related := .within related
  self := Task.Keeps.self
  modifySelf _ _ balance := ⟨balance.settled, balance.among⟩
  machine _ balance := balance
  update neutral later := .update neutral later
  pause := .pause lawful
  repeats _ related := Task.Keeps.bind Task.Keeps.get fun _ => Task.Keeps.repeatWithin related _

theorem Endpoint.ends_awaitCounted (ep : Endpoint) {now : Moment Transport (Counted ε)}
    (balance : InBalance turns 0 start now) :
    Task.Ends (Task.awaitAnswer ep.takeCounted now)
      (fun answer now => InBalance turns (Letter.due answer) start now)
      fun _ now => InBalance turns 0 start now := by
  unfold Task.awaitAnswer
  apply Task.ends_polling (InBalance turns 0 start)
  · intro now balance
    apply Task.ends_bind
    refine (ep.ends_takeCounted balance).mono (fun answer now counted => ?_) fun _ _ kept => kept
    cases answer with
    | ok letter => exact counted
    | error e =>
        cases e with
        | transient => exact counted
        | _ => exact counted
  · exact Task.Replenishes.pause lawful
  · exact fun _ kept => kept
  · exact balance

/-- A letter with a capability is made up for before the others act again. -/
theorem Transport.replenishes_receive : Task.Replenishes turns start
    (receiveBy Endpoint.takeCounted : Task Transport (Counted ε) (Option Message)) := by
  refine Task.Keeps.bind Task.Keeps.self fun t => ?_
  cases t with
  | endpoint ep =>
      intro now balance
      apply Task.ends_bind
      refine (ep.ends_awaitCounted lawful balance).mono (fun answer now counted => ?_)
        fun _ _ kept => kept
      cases answer with
      | error e =>
          cases e with
          | noMessage => exact counted
          | _ => exact counted
      | ok letter =>
          obtain ⟨words, cap⟩ := letter
          cases cap with
          | none => exact counted
          | some cap => exact Task.ends_bind (ep.ends_provide counted)
  | slots chan =>
      refine Task.Replenishes.update (fun m used _ ran => SlotChannel.neutral_receive ran)
        fun used => ?_
      exact Task.Keeps.bind (Task.Replenishes.setSelf _) fun _ => Task.Keeps.pure _

/-- Whatever a party is asked to do, it owes no receive slot more afterwards. -/
theorem Rpc.replenishes_perform [Handler η (Counted ε)]
    (answers : ∀ args, Task.Replenishes turns start
      (Handler.respond args : Task η (Counted ε) (List Value))) (command : Command η) :
    Task.Replenishes turns start (command.operation.performBy Endpoint.takeCounted) :=
  (parametric_replenishes lawful).perform Endpoint.takeCounted Endpoint.takeCounted
    (Transport.replenishes_receive lawful) answers command

/-- Whatever a stream is asked to do, it owes no receive slot more afterwards. -/
theorem Stream.replenishes_run (op : Stream.Op) :
    Task.Replenishes turns start (op.runBy Endpoint.takeCounted) :=
  (parametric_replenishes lawful).run Endpoint.takeCounted Endpoint.takeCounted
    (Transport.replenishes_receive lawful) op

end Lawful

end Conduit

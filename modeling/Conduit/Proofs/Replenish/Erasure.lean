/-
# Counting changes nothing else

`Task.Forgets` says that one task does what another one does and ends as it does, but that the
other one has counts beside the others; and that it does so while the others, in their turns,
forget the counts too. Taking letters forgets that they are counted, and so does whatever a party
or a stream does (`Rpc.forgets_perform`, `Stream.forgets_run`).
-/

import Conduit.Proofs.Replenish.Balance
import Conduit.Proofs.Stream.Line

namespace Conduit

variable {δ ε ζ η α β : Type}

/-- The scene without the counts. -/
def Scene.plain (scene : Scene (Counted ε)) : Scene ε := ⟨scene.machine, scene.others.rest⟩

/-- The moment without the counts, and with these turns to come. -/
def Moment.plain (now : Moment δ (Counted ε)) (turns : List (Turn ε)) : Moment δ ε :=
  ⟨now.self, now.scene.plain, turns⟩

/-- The second turn does what the first one does, but for the counts. -/
def Turn.Forgets (turn : Turn (Counted ε)) (plain : Turn ε) : Prop :=
  ∀ scene, plain scene.plain = match turn scene with
    | .ok u scene => .ok u scene.plain
    | .error h scene => .error h scene.plain

namespace Task

/-- The second task ended as the first one did, and left the same but for the counts. -/
def Alike (ended : Except Stop α × Moment δ (Counted ε)) (plain : Except Stop α × Moment δ ε) :
    Prop :=
  ∃ turns, List.Forall₂ Turn.Forgets ended.2.turns turns ∧ plain = (ended.1, ended.2.plain turns)

/-- The second task does what the first one does, but for the counts, wherever the turns to come
do. -/
def Forgets (task : Task δ (Counted ε) α) (plain : Task δ ε α) : Prop :=
  ∀ now turns, List.Forall₂ Turn.Forgets now.turns turns →
    Alike (task.finish now) (plain.finish (now.plain turns))

/-! ### How tasks that are put together end -/

section Finish

variable {σ : Type} {now : Moment δ σ}

theorem finish_bind (task : Task δ σ α) (next : α → Task δ σ β) (now : Moment δ σ) :
    (task >>= next).finish now = match task.finish now with
      | (.ok a, mid) => (next a).finish mid
      | (.error stop, mid) => (.error stop, mid) := by
  unfold finish
  cases ran : task now with
  | ok a mid => rw [bind_ok ran]
  | error stop mid => rw [bind_error ran]

theorem finish_settle (task : Task δ σ α) (now : Moment δ σ) :
    (settle task).finish now = match task.finish now with
      | (.ok a, last) => (.ok (.ok a), last)
      | (.error (.failed e), last) => (.ok (.error e), last)
      | (.error (.halted h), last) => (.error (.halted h), last) := by
  unfold finish settle
  cases task now with
  | ok a last => rfl
  | error stop last =>
      cases stop with
      | failed e => rfl
      | halted h => rfl

theorem finish_within (part : δ → ζ) (setPart : ζ → δ → δ) (task : Task ζ σ α)
    (now : Moment δ σ) : (within part setPart task).finish now =
      match task.finish ⟨part now.self, now.scene, now.turns⟩ with
      | (outcome, inner) => (outcome, ⟨setPart inner.self now.self, inner.scene, inner.turns⟩) := by
  unfold finish within
  cases task ⟨part now.self, now.scene, now.turns⟩ with
  | ok a inner => rfl
  | error stop inner => rfl

end Finish

namespace Forgets

theorem bind {task : Task δ (Counted ε) α} {plain : Task δ ε α}
    {next : α → Task δ (Counted ε) β} {plain' : α → Task δ ε β} (first : Forgets task plain)
    (later : ∀ a, Forgets (next a) (plain' a)) : Forgets (task >>= next) (plain >>= plain') := by
  intro now turns alike
  obtain ⟨turns', alike', same⟩ := first now turns alike
  rcases ended : task.finish now with ⟨outcome, last⟩
  rw [ended] at alike' same
  rw [finish_bind, finish_bind, ended, same]
  cases outcome with
  | ok a => exact later a last turns' alike'
  | error stop => exact ⟨turns', alike', rfl⟩

theorem settle {task : Task δ (Counted ε) α} {plain : Task δ ε α} (forgets : Forgets task plain) :
    Forgets (Task.settle task) (Task.settle plain) := by
  intro now turns alike
  obtain ⟨turns', alike', same⟩ := forgets now turns alike
  rcases ended : task.finish now with ⟨outcome, last⟩
  rw [ended] at alike' same
  rw [finish_settle, finish_settle, ended, same]
  cases outcome with
  | ok a => exact ⟨turns', alike', rfl⟩
  | error stop =>
      cases stop with
      | failed e => exact ⟨turns', alike', rfl⟩
      | halted h => exact ⟨turns', alike', rfl⟩

theorem within {part : δ → ζ} {setPart : ζ → δ → δ} {task : Task ζ (Counted ε) α}
    {plain : Task ζ ε α} (forgets : Forgets task plain) :
    Forgets (Task.within part setPart task) (Task.within part setPart plain) := by
  intro now turns alike
  let inside : Moment ζ (Counted ε) := ⟨part now.self, now.scene, now.turns⟩
  obtain ⟨turns', alike', same⟩ := forgets inside turns alike
  rw [finish_within, finish_within]
  change Alike _ (match plain.finish (inside.plain turns) with
    | (outcome, inner) => (outcome, ⟨setPart inner.self now.self, inner.scene, inner.turns⟩))
  rw [same]
  exact ⟨turns', alike', rfl⟩

/-- Whatever is asked of the machine. -/
theorem asking (use : Machine → Except ChannelError α × Machine) :
    Forgets (Task.asking use : Task δ (Counted ε) (Except ChannelError α)) (Task.asking use) :=
  fun _ turns alike => ⟨turns, alike, rfl⟩

theorem update {use : Machine → Except Panic α} {after : Machine → α → Machine}
    {next : α → Task δ (Counted ε) β} {plain : α → Task δ ε β}
    (later : ∀ a, Forgets (next a) (plain a)) :
    Forgets
      (Task.machine >>= fun m => Task.orPanic (use m) >>= fun a =>
        Task.setMachine (after m a) >>= fun _ => next a)
      (Task.machine >>= fun m => Task.orPanic (use m) >>= fun a =>
        Task.setMachine (after m a) >>= fun _ => plain a) := by
  intro now turns alike
  have read {σ : Type} (next : Machine → Task δ σ β) (now : Moment δ σ) :
      (Task.machine >>= next).finish now = (next now.scene.machine).finish now := rfl
  rw [read, read]
  change Alike _ (Task.finish (Task.orPanic (use now.scene.machine) >>= _) _)
  cases use now.scene.machine with
  | error cause => exact ⟨turns, alike, rfl⟩
  | ok a => exact later a _ turns alike

theorem pause : Forgets (Task.pause : Task δ (Counted ε) Unit) (Task.pause : Task δ ε Unit) := by
  rintro ⟨self, scene, pending⟩ turns alike
  cases alike with
  | nil => exact ⟨[], .nil, rfl⟩
  | @cons turn plain rest turns forgets later =>
      have same := forgets scene
      cases ran : turn scene with
      | ok u scene' =>
          rw [ran] at same
          have passed : Task.pause.finish ⟨self, scene, turn :: rest⟩ =
              (.ok (), ⟨self, scene', rest⟩) := by simp only [finish, Task.pause, ran]
          have passed' : Task.pause.finish ⟨self, scene.plain, plain :: turns⟩ =
              (.ok (), ⟨self, scene'.plain, turns⟩) := by simp only [finish, Task.pause, same]
          rw [passed]
          exact ⟨turns, later, passed'⟩
      | error h scene' =>
          rw [ran] at same
          have halted : Task.pause.finish ⟨self, scene, turn :: rest⟩ =
              (.error (.halted h), ⟨self, scene', rest⟩) := by
            simp only [finish, Task.pause, ran]
          have halted' : Task.pause.finish ⟨self, scene.plain, plain :: turns⟩ =
              (.error (.halted h), ⟨self, scene'.plain, turns⟩) := by
            simp only [finish, Task.pause, same]
          rw [halted]
          exact ⟨turns, later, halted'⟩

theorem repeatWithin {round : Task δ (Counted ε) (Option α)} {plain : Task δ ε (Option α)}
    (forgets : Forgets round plain) (bound : Nat) :
    Forgets (Task.repeatWithin bound round) (Task.repeatWithin bound plain) := by
  induction bound with
  | zero => exact fun _ turns alike => ⟨turns, alike, rfl⟩
  | succ bound ih =>
      refine bind forgets fun found => ?_
      cases found with
      | none => exact ih
      | some a => exact fun _ turns alike => ⟨turns, alike, rfl⟩

end Forgets

/-- Counting and forgetting is a matter of the parts of a task. -/
theorem parametric_forgets : Parametric
    fun {δ α : Type} (task : Task δ (Counted ε) α) (plain : Task δ ε α) => task.Forgets plain where
  pure _ _ turns alike := ⟨turns, alike, rfl⟩
  fail _ _ turns alike := ⟨turns, alike, rfl⟩
  halt _ _ turns alike := ⟨turns, alike, rfl⟩
  bind first later := .bind first later
  settle related := .settle related
  within related := .within related
  self _ turns alike := ⟨turns, alike, rfl⟩
  modifySelf _ _ turns alike := ⟨turns, alike, rfl⟩
  machine _ turns alike := ⟨turns, alike, rfl⟩
  update _ later := .update later
  pause := .pause
  repeats bound related := by
    intro now turns alike
    change Alike (Task.finish (Task.repeatWithin
      (bound now.self now.scene.machine now.turns.length) _) now) _
    rw [alike.length_eq]
    exact Forgets.repeatWithin related _ now turns alike

end Task

/-! ### Operations -/

/-- Letters are taken as they are without the count. -/
theorem Endpoint.forgets_take (ep : Endpoint) :
    (ep.takeCounted : Task Transport (Counted ε) _).Forgets ep.take :=
  fun _ turns alike => ⟨turns, alike, rfl⟩

theorem Transport.forgets_receive :
    (receiveBy Endpoint.takeCounted : Task Transport (Counted ε) (Option Message)).Forgets
      (receiveBy Endpoint.take) := by
  have rules := Task.parametric_forgets (ε := ε)
  refine rules.bind rules.self fun t => ?_
  cases t with
  | endpoint ep =>
      refine rules.bind (rules.awaitAnswer ep.forgets_take) fun answer => ?_
      cases answer with
      | error e =>
          cases e with
          | noMessage => exact rules.pure _
          | _ => exact rules.fail _
      | ok letter =>
          obtain ⟨words, cap⟩ := letter
          cases cap with
          | none => exact rules.pure _
          | some cap =>
              refine rules.bind (rules.bind (.asking ep.allocRecvSlot) fun granted => ?_) fun _ =>
                rules.pure _
              cases granted with
              | ok u => exact rules.pure u
              | error e => exact rules.fail _
  | slots chan =>
      exact rules.update (fun m used _ ran => SlotChannel.neutral_receive ran) fun used =>
        rules.bind (rules.setSelf _) fun _ => rules.pure _

/-- What a party is asked to do does not depend on the count. -/
theorem Rpc.forgets_perform [Handler η (Counted ε)] [Handler η ε]
    (answers : ∀ args, (Handler.respond args : Task η (Counted ε) (List Value)).Forgets
      (Handler.respond args)) (command : Command η) :
    (command.operation.performBy Endpoint.takeCounted : Task (Rpc η) (Counted ε) Unit).Forgets
      command.operation.perform := by
  rw [← Operation.performBy_take]
  exact Task.parametric_forgets.perform _ _ Transport.forgets_receive answers command

/-- What a stream is asked to do does not depend on the count. -/
theorem Stream.forgets_run (op : Stream.Op) :
    (op.runBy Endpoint.takeCounted : Task Reader (Counted ε) Nat).Forgets op.run := by
  rw [← op.runBy_take]
  exact Task.parametric_forgets.run _ _ Transport.forgets_receive op

end Conduit

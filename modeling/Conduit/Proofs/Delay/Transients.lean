/-
# Refusals for the moment are invisible

Whatever an operation does, it does the same if the endpoint refuses more often for the
moment, as long as nobody acts in the turn after each refusal. The result is the same, and so
are the party, the kernel, the memory, the bells and the other parties; only the refusals that
were met are no longer to come, and as many turns more have passed.

The turns are arbitrary but for this: what the others do must not depend on refusals that are
not meant for them. What another endpoint does is of this kind (`Turn.blind_doing`).
-/

import Conduit.Proofs.Call.EndToEnd
import Conduit.Proofs.Delay.Operations

namespace Conduit

variable {δ η σ α β : Type} {home : Cap}

open Machine (Delayed Heedless)
open Conduit.Task (Unseen LagsBy Takes completed Unhurried)

/-! ### Turns that are blind to the refusals -/

/-- A turn in which the machine is used once. -/
def Turn.doing (use : σ → Machine → α × Machine) (note : α → σ → σ) : Turn σ := fun scene =>
  let (answer, m) := use scene.others scene.machine
  .ok () ⟨m, note answer scene.others⟩

theorem Turn.blind_doing {use : σ → Machine → α × Machine} {note : α → σ → σ}
    (heedless : ∀ others, Heedless home (use others)) :
    Turn.Blind home (Turn.doing use note) := by
  intro n scene scene' late delayed passed
  obtain ⟨late', used, delayed'⟩ := heedless scene.others n scene.machine late delayed
  cases passed
  refine ⟨late', ?_, delayed'⟩
  simp only [Turn.doing, used]

/-- A turn in which two things are done. -/
def Turn.andThen (first second : Turn σ) : Turn σ :=
  (do first; second : EStateM Halt (Scene σ) Unit)

theorem Turn.Blind.andThen {first second : Turn σ} (one : Turn.Blind home first)
    (two : Turn.Blind home second) : Turn.Blind home (first.andThen second) := by
  intro n scene scene' late delayed passed
  unfold Turn.andThen at passed ⊢
  cases ran : first scene with
  | error h between =>
      simp only [bind, EStateM.bind, ran] at passed
      cases passed
  | ok u between =>
      simp only [bind, EStateM.bind, ran] at passed
      obtain ⟨late', ran', delayed'⟩ := one n scene between late delayed ran
      obtain ⟨late'', passed', delayed''⟩ := two n between scene' late' delayed' passed
      refine ⟨late'', ?_, delayed''⟩
      simp only [bind, EStateM.bind, ran', passed']

/-! ### Operations -/

/-- More refusals for the moment are invisible to a task. If it completes, then on the delayed
machine it completes with the same outcome and leaves the same, once the turns are padded with
an empty turn for each refusal that is met. -/
def Task.Invisible (home : Cap) (task : Task δ σ α) : Prop :=
  ∀ (now : Moment δ σ) (n : Nat) (late : Machine), Unseen home now →
    Delayed home n now.scene.machine late →
    ∀ (outcome : Except Error α) (now' : Moment δ σ), task now = completed outcome now' →
    ∃ met left late' log padded,
      LagsBy home n late now now' (fun _ start last => task start = completed outcome last)
        met left late' log padded ∧
      padded.length = log.length + met ∧
      task (now.on late (padded.map Passing.turn ++ now'.turns)) =
        completed outcome (now'.on late' now'.turns)

theorem Task.Unhurried.invisible {task : Task δ σ α} (unhurried : Unhurried home task) :
    Task.Invisible home task := by
  intro now n late unseen delayed outcome now' ran
  obtain ⟨met, left, late', log, padded, lags⟩ := unhurried now n late unseen delayed outcome now' ran
  have yields := lags.pads.length
  have count := lags.count
  exact ⟨met, left, late', log, padded, lags, by omega,
    lags.there _ _ (replays_turns padded) (Nat.le_refl _)⟩

/-- Refusals for the moment at any endpoint are invisible to every operation of a party that
makes and serves calls, and to every operation of a stream. -/
theorem transients_invisible [Handler η σ] (home : Cap)
    (handlers : ∀ args, Unhurried home (Handler.respond args : Task η σ (List Value))) :
    (∀ t args, Task.Invisible home (Rpc.call t args : Task (Rpc η) σ (List Value))) ∧
    Task.Invisible home (Rpc.onMessage : Task (Rpc η) σ Dispatch) ∧
    Task.Invisible home (Rpc.dispatchPending : Task (Rpc η) σ Dispatch) ∧
    (∀ data, Task.Invisible home (Stream.send data : Task Stream σ Unit)) ∧
    Task.Invisible home (Stream.close : Task Stream σ Unit) ∧
    (∀ length, Task.Invisible home (Reader.receiveAvailable length : Task Reader σ Nat)) ∧
    (∀ length, Task.Invisible home (Reader.receive length : Task Reader σ Nat)) ∧
    (∀ upTo, Task.Invisible home (Reader.receiveAll upTo : Task Reader σ Unit)) ∧
    (∀ length, Task.Invisible home (Reader.receiveMessage length : Task Reader σ Nat)) :=
  ⟨fun t args => (Rpc.unhurried_call t args).invisible,
    (Rpc.unhurried_onMessage handlers).invisible,
    (Rpc.unhurried_dispatchPending handlers).invisible,
    fun data => (Stream.unhurried_send data).invisible, Stream.unhurried_close.invisible,
    fun length => (Reader.unhurried_receiveAvailable length).invisible,
    fun length => (Reader.unhurried_receive length).invisible,
    fun upTo => (Reader.unhurried_receiveAll upTo).invisible,
    fun length => (Reader.unhurried_receiveMessage length).invisible⟩

/-! ### A server whose endpoint is busy -/

namespace Echo

theorem unhurried_tally (args : List Value) :
    Unhurried home (Handler.respond args : Task Rpc.Tally σ (List Value)) :=
  .bind (.modifySelf _) fun _ => .pure args

/-- A server of calls that pass one word and return it. -/
def server : Rpc Rpc.Tally where
  transport := .endpoint { home := ⟨1⟩, peer := some ⟨0⟩ }
  entries := ({} : Table MessageType Entry).insert ⟨10⟩ { binding := ⟨⟨10⟩, [.word], [.word]⟩ }
  handlers := ({} : Table MessageType Rpc.Tally).insert ⟨10⟩ ⟨0⟩
  pageSize := 16

/-- The endpoint of its client. -/
def caller : Endpoint := { home := ⟨0⟩, peer := some ⟨1⟩ }

/-- A call of it. -/
def call : Letter := ⟨Letter.fit [10, 7], none⟩

/-- The client takes a letter and calls once more. -/
def collecting : Turn Unit :=
  (Turn.doing (fun _ => caller.recv) fun _ others => others).andThen
    (Turn.doing (fun _ => caller.send SendFlags.standard call) fun _ others => others)

/-- A call waits for the server, and the client has no room for the reply. -/
def crowded : Moment (Rpc Rpc.Tally) Unit :=
  let m := (Endpoint.createPair (Machine.create 1)).2
  let m := (m.onKernel_ fun k => k.inject ⟨0⟩ call).2
  ⟨server, ⟨(caller.send SendFlags.standard call m).2, ()⟩, [collecting]⟩

theorem unseen_crowded : Unseen ⟨1⟩ crowded := by
  intro turn mem
  obtain rfl := List.mem_singleton.mp mem
  exact (Turn.blind_doing fun _ => caller.heedless_recv (by decide)).andThen
    (Turn.blind_doing fun _ => caller.heedless_send (by decide) _ _)

/-- The reply is refused twice more than it would be for want of room. -/
theorem transients_invisible_crowded : ∃ now' : Moment (Rpc Rpc.Tally) Unit,
    Unseen ⟨1⟩ crowded ∧
    Rpc.onMessage crowded = completed (.ok (.handled ⟨10⟩)) now' ∧ now'.turns = [] ∧
    ∃ met left late' log padded, 2 = met + left ∧ Padded ⟨1⟩ 2 left log padded ∧
      log.map Passing.turn = [collecting] ∧ padded.length = 1 + met ∧
      Rpc.onMessage (crowded.on (crowded.scene.machine.refusing (.endpoint ⟨1⟩ .send) 2)
        (padded.map Passing.turn)) = completed (.ok (.handled ⟨10⟩)) (now'.on late' []) ∧
      Delayed ⟨1⟩ left now'.scene.machine late' := by
  have ran : ((Task.success? (Rpc.onMessage crowded)).map fun done =>
      (done.1, done.2.turns.length)) = some (.handled ⟨10⟩, 0) := by decide +kernel
  obtain ⟨⟨outcome, now'⟩, returned, same⟩ := Option.map_eq_some_iff.mp ran
  obtain ⟨rfl, turns⟩ := Prod.mk.inj same
  have none : now'.turns = [] := List.length_eq_zero_iff.mp turns
  have returned := Task.success?_eq_some returned
  obtain ⟨met, left, late', log, padded, lags, yields, ran'⟩ :=
    (transients_invisible ⟨1⟩ unhurried_tally).2.1 crowded 2 _ unseen_crowded
      (Machine.delayed_refusing (.inl rfl) _ 2) (.ok (.handled ⟨10⟩)) now' returned
  have taken := lags.turns
  rw [none, List.append_nil] at taken ran'
  have length := congrArg List.length taken
  rw [List.length_map] at length
  refine ⟨now', unseen_crowded, returned, none, met, left, late', log, padded, lags.count, lags.pads,
    taken.symm, ?_, ran', lags.delayed⟩
  rw [yields, ← length]
  rfl

end Echo

end Conduit

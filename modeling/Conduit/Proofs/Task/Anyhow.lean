/-
# What holds of a task whatever the others do

The rules of `Ends` need a promise of the others. Two properties of a task need none:
with which failures it may end (`FailsOnly`), and which states of its own party it keeps
(`KeepsSelf`). Both follow the way the task is put together, and waiting adds nothing,
since the others neither fail in the task's place nor touch its party.
-/

import Conduit.Proofs.Task.Ends

namespace Conduit.Task

variable {δ ε σ α β : Type}

/-- What two rules say of one ending, said at once. -/
theorem Ends.and {result : EStateM.Result Stop (Moment δ σ) α} {done done' : α → Moment δ σ → Prop}
    {stopped stopped' : Stop → Moment δ σ → Prop} (first : Ends result done stopped)
    (second : Ends result done' stopped') :
    Ends result (fun a now => done a now ∧ done' a now)
      fun stop now => stopped stop now ∧ stopped' stop now := by
  cases result with
  | ok a now => exact ⟨first, second⟩
  | error stop now => exact ⟨first, second⟩

/-- How a task ended that was settled and has completed. -/
theorem Ends.settled {task : Task δ σ α} {done : α → Moment δ σ → Prop}
    {stopped : Stop → Moment δ σ → Prop} {outcome : Except Error α} {now now' : Moment δ σ}
    (ends : Ends (task now) done stopped) (completed : settle task now = .ok outcome now') :
    (∃ a, outcome = .ok a ∧ done a now') ∨ ∃ e, outcome = .error e ∧ stopped (.failed e) now' := by
  unfold settle at completed
  cases ran : task now with
  | ok a later =>
      rw [ran] at ends completed
      cases completed
      exact .inl ⟨a, rfl, ends⟩
  | error stop later =>
      rw [ran] at ends completed
      cases stop with
      | halted h => cases completed
      | failed e =>
          cases completed
          exact .inr ⟨e, rfl, ends⟩

/-! ### The failures of a task -/

/-- If the task fails at all, then as in `p`. -/
def FailsOnly (p : Error → Prop) (task : Task δ σ α) : Prop :=
  ∀ now, Ends (task now) (fun _ _ => True) fun stop _ => ∀ e, stop = .failed e → p e

theorem FailsOnly.of_ran {p : Error → Prop} {task : Task δ σ α} {e : Error}
    {now now' : Moment δ σ} (only : FailsOnly p task)
    (failed : task now = .error (.failed e) now') : p e := by
  have ends := only now
  rw [failed] at ends
  exact ends e rfl

namespace FailsOnly

variable {p : Error → Prop}

protected theorem pure (a : α) : FailsOnly p (pure a : Task δ σ α) := fun _ => trivial

theorem fail {e : Error} (holds : p e) : FailsOnly p (Task.fail e : Task δ σ α) := by
  intro now e' same
  cases same
  exact holds

/-- Nothing is done after a failure. -/
theorem fail_bind {e : Error} {next : β → Task δ σ α} (holds : p e) :
    FailsOnly p (Task.fail e >>= next) := by
  intro now e' same
  cases same
  exact holds

theorem halt (h : Halt) : FailsOnly p (Task.halt h : Task δ σ α) := by
  intro now e same
  cases same

theorem self : FailsOnly p (Task.self : Task δ σ δ) := fun _ => trivial

theorem setSelf (d : δ) : FailsOnly p (Task.setSelf d : Task δ σ Unit) := fun _ => trivial

theorem machine : FailsOnly p (Task.machine : Task δ σ Machine) := fun _ => trivial

theorem setMachine (m : Machine) : FailsOnly p (Task.setMachine m : Task δ σ Unit) :=
  fun _ => trivial

protected theorem bind {task : Task δ σ α} {next : α → Task δ σ β} (first : FailsOnly p task)
    (later : ∀ a, FailsOnly p (next a)) : FailsOnly p (task >>= next) := by
  intro now
  apply ends_bind
  exact (first now).mono (fun a now' _ => later a now') fun _ _ fails => fails

theorem ofExcept {result : Except Error α} (holds : ∀ e, result = .error e → p e) :
    FailsOnly p (Task.ofExcept result : Task δ σ α) := by
  cases result with
  | ok a => exact .pure a
  | error e => exact .fail (holds e rfl)

theorem orPanic (result : Except Panic α) :
    FailsOnly p (Task.orPanic result : Task δ σ α) := by
  cases result with
  | ok a => exact .pure a
  | error cause => exact .halt _

theorem asking (use : Machine → Except ChannelError α × Machine) :
    FailsOnly p (Task.asking use : Task δ σ (Except ChannelError α)) := fun _ => trivial

theorem request {use : Machine → Except ChannelError α × Machine}
    (holds : ∀ cause, p (Error.ofChannel cause)) :
    FailsOnly p (Task.request use : Task δ σ α) := by
  refine .bind (.asking use) ?_
  rintro (cause | a)
  · exact .fail (holds cause)
  · exact .pure a

theorem onMachine (use : Machine → Except Panic (α × Machine)) :
    FailsOnly p (Task.onMachine use : Task δ σ α) :=
  .bind .machine fun _ => .bind (.orPanic _) fun _ => .bind (.setMachine _) fun _ => .pure _

theorem within {part : δ → ε} {setPart : ε → δ → δ} {task : Task ε σ α} (only : FailsOnly p task) :
    FailsOnly p (Task.within part setPart task) := by
  intro now
  apply ends_within
  exact (only _).mono (fun _ _ _ => trivial) fun _ _ fails => fails

theorem pause : FailsOnly p (Task.pause : Task δ σ Unit) := by
  intro now
  refine ends_turn ?_ ?_ ?_
  · rintro - e same
    cases same
  · exact fun _ _ _ _ _ => trivial
  · rintro _ _ h _ - - e same
    cases same

theorem repeatWithin {round : Task δ σ (Option α)} (rounds : FailsOnly p round) (bound : Nat) :
    FailsOnly p (Task.repeatWithin bound round) := by
  induction bound with
  | zero => exact .halt _
  | succ bound ih =>
      refine .bind rounds ?_
      rintro (_ | a)
      · exact ih
      · exact .pure a

theorem await {poll : Task δ σ (Option α)} (polls : FailsOnly p poll) :
    FailsOnly p (Task.await poll) := by
  refine .bind (fun _ => trivial) fun now => .repeatWithin (.bind polls ?_) _
  rintro (_ | a)
  · exact .bind .pause fun _ => .pure _
  · exact .pure _

theorem awaitAnswer {attempt : Task δ σ (Except ChannelError α)} (attempts : FailsOnly p attempt) :
    FailsOnly p (Task.awaitAnswer attempt) := by
  refine .await (.bind attempts fun answer => ?_)
  split
  · exact .pure _
  · exact .pure _

end FailsOnly

/-! ### The state of a party -/

/-- However the task ends, the state of its party is again as in `holds`. -/
def KeepsSelf (holds : δ → Prop) (task : Task δ σ α) : Prop :=
  Keeps (fun now => holds now.self) task

namespace KeepsSelf

variable {holds : δ → Prop}

protected theorem pure (a : α) : KeepsSelf holds (pure a : Task δ σ α) := Keeps.pure a

theorem fail (e : Error) : KeepsSelf holds (Task.fail e : Task δ σ α) := Keeps.fail e

theorem fail_bind (e : Error) (next : β → Task δ σ α) :
    KeepsSelf holds (Task.fail e >>= next) := Keeps.fail_bind e next

theorem halt (h : Halt) : KeepsSelf holds (Task.halt h : Task δ σ α) := fun _ kept => kept

protected theorem bind {task : Task δ σ α} {next : α → Task δ σ β} (first : KeepsSelf holds task)
    (later : ∀ a, KeepsSelf holds (next a)) : KeepsSelf holds (task >>= next) :=
  Keeps.bind first later

/-- What follows may rely on the state that was read. -/
theorem self_bind {next : δ → Task δ σ α}
    (later : ∀ d, holds d → ∀ now : Moment δ σ, now.self = d →
      Ends (next d now) (fun _ now => holds now.self) fun _ now => holds now.self) :
    KeepsSelf holds (Task.self >>= next) := by
  intro now kept
  rw [Task.self_bind]
  exact later now.self kept now rfl

theorem self : KeepsSelf holds (Task.self : Task δ σ δ) := fun _ kept => kept

theorem machine : KeepsSelf holds (Task.machine : Task δ σ Machine) := fun _ kept => kept

theorem setMachine (m : Machine) : KeepsSelf holds (Task.setMachine m : Task δ σ Unit) :=
  fun _ kept => kept

theorem ofExcept (result : Except Error α) :
    KeepsSelf holds (Task.ofExcept result : Task δ σ α) := by
  cases result with
  | ok a => exact .pure a
  | error e => exact .fail e

theorem orPanic (result : Except Panic α) :
    KeepsSelf holds (Task.orPanic result : Task δ σ α) := by
  cases result with
  | ok a => exact .pure a
  | error cause => exact .halt _

theorem asking (use : Machine → Except ChannelError α × Machine) :
    KeepsSelf holds (Task.asking use : Task δ σ (Except ChannelError α)) := fun _ kept => kept

theorem request (use : Machine → Except ChannelError α × Machine) :
    KeepsSelf holds (Task.request use : Task δ σ α) := by
  refine .bind (.asking use) ?_
  rintro (cause | a)
  · exact .fail _
  · exact .pure a

theorem onMachine (use : Machine → Except Panic (α × Machine)) :
    KeepsSelf holds (Task.onMachine use : Task δ σ α) :=
  .bind .machine fun _ => .bind (.orPanic _) fun _ => .bind (.setMachine _) fun _ => .pure _

theorem settle {task : Task δ σ α} (keeps : KeepsSelf holds task) :
    KeepsSelf holds (Task.settle task) := Keeps.settle keeps

theorem pause : KeepsSelf holds (Task.pause : Task δ σ Unit) := by
  intro now kept
  exact ends_turn (fun _ => kept) (fun _ _ _ _ _ => kept) fun _ _ _ _ _ _ => kept

theorem await {poll : Task δ σ (Option α)} (polls : KeepsSelf holds poll) :
    KeepsSelf holds (Task.await poll) := Keeps.polling polls KeepsSelf.pause

theorem awaitAnswer {attempt : Task δ σ (Except ChannelError α)}
    (attempts : KeepsSelf holds attempt) : KeepsSelf holds (Task.awaitAnswer attempt) := by
  refine .await (.bind attempts fun answer => ?_)
  split
  · exact .pure _
  · exact .pure _

/-- A part that the condition does not look at may change in any way. -/
theorem within {part : δ → ε} {setPart : ε → δ → δ} (kept : ∀ e d, holds d → holds (setPart e d))
    (task : Task ε σ α) : KeepsSelf holds (Task.within part setPart task) := by
  intro now held
  unfold Task.within
  cases task ⟨part now.self, now.scene, now.turns⟩ with
  | ok a inner => exact kept inner.self now.self held
  | error stop inner => exact kept inner.self now.self held

end KeepsSelf

end Conduit.Task

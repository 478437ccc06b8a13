/-
# When a task panics

Whether a task panics follows the way it is put together: a sequence does if one of its
parts does where it begins (`panics_bind`). A task is `Peaceful` if it never does. A task
that waits does not if its polls do not and the turns of the others do not
(`not_panics_await`).
-/

import Conduit.Proofs.Task.Ends

namespace Conduit

variable {δ ε σ α β : Type}

/-- Whatever the scene, the turn does not panic. -/
def Turn.Peaceful (turn : Turn σ) : Prop :=
  ∀ scene cause scene', turn scene ≠ .error (.panicked cause) scene'

namespace Task

/-- A run that ends everything by a panic. -/
def Panics (result : EStateM.Result Stop (Moment δ σ) α) : Prop :=
  ∃ cause now, result = .error (.halted (.panicked cause)) now

theorem not_panics_ok (a : α) (now : Moment δ σ) :
    ¬ Panics (.ok a now : EStateM.Result Stop (Moment δ σ) α) := by
  rintro ⟨cause, now', same⟩
  cases same

theorem not_panics_failed (e : Error) (now : Moment δ σ) :
    ¬ Panics (.error (.failed e) now : EStateM.Result Stop (Moment δ σ) α) := by
  rintro ⟨cause, now', same⟩
  cases same

/-- A sequence panics in its first part, or later where that returned. -/
theorem panics_bind {task : Task δ σ β} {next : β → Task δ σ α} {now : Moment δ σ} :
    Panics ((task >>= next) now) ↔
      Panics (task now) ∨ ∃ b mid, task now = .ok b mid ∧ Panics (next b mid) := by
  cases ran : task now with
  | ok b mid =>
      rw [bind_ok ran]
      constructor
      · exact fun panics => .inr ⟨b, mid, rfl, panics⟩
      · rintro (panics | ⟨_, _, same, panics⟩)
        · exact absurd panics (not_panics_ok b mid)
        · cases same
          exact panics
  | error stop mid =>
      rw [bind_error ran]
      constructor
      · rintro ⟨cause, now', same⟩
        cases same
        exact .inl ⟨cause, _, rfl⟩
      · rintro (⟨cause, now', same⟩ | ⟨_, _, same, -⟩)
        · cases same
          exact ⟨cause, _, rfl⟩
        · cases same

theorem panics_settle {task : Task δ σ α} {now : Moment δ σ} :
    Panics (settle task now) ↔ Panics (task now) := by
  unfold settle
  cases task now with
  | ok a now' => exact iff_of_false (not_panics_ok _ _) (not_panics_ok _ _)
  | error stop now' =>
      cases stop with
      | failed e => exact iff_of_false (not_panics_ok _ _) (not_panics_failed _ _)
      | halted h =>
          constructor
          · rintro ⟨cause, _, same⟩
            cases same
            exact ⟨cause, _, rfl⟩
          · rintro ⟨cause, _, same⟩
            cases same
            exact ⟨cause, _, rfl⟩

theorem panics_within {part : δ → ε} {setPart : ε → δ → δ} {task : Task ε σ α}
    {now : Moment δ σ} : Panics (within part setPart task now) ↔
      Panics (task ⟨part now.self, now.scene, now.turns⟩) := by
  unfold within
  cases task ⟨part now.self, now.scene, now.turns⟩ with
  | ok a inner => exact iff_of_false (not_panics_ok _ _) (not_panics_ok _ _)
  | error stop inner =>
      constructor
      · rintro ⟨cause, _, same⟩
        cases same
        exact ⟨cause, _, rfl⟩
      · rintro ⟨cause, _, same⟩
        cases same
        exact ⟨cause, _, rfl⟩

/-- The task does not panic, wherever it is run. -/
def Peaceful (task : Task δ σ α) : Prop := ∀ now, ¬ Panics (task now)

namespace Peaceful

protected theorem pure (a : α) : Peaceful (pure a : Task δ σ α) := not_panics_ok a

theorem fail (e : Error) : Peaceful (Task.fail e : Task δ σ α) := not_panics_failed e

theorem fail_bind (e : Error) (next : β → Task δ σ α) : Peaceful (Task.fail e >>= next) :=
  not_panics_failed e

theorem self : Peaceful (Task.self : Task δ σ δ) := fun now => not_panics_ok now.self now

theorem setSelf (d : δ) : Peaceful (Task.setSelf d : Task δ σ Unit) := fun _ => not_panics_ok _ _

theorem asking (use : Machine → Except ChannelError α × Machine) :
    Peaceful (Task.asking use : Task δ σ (Except ChannelError α)) := fun _ => not_panics_ok _ _

protected theorem bind {task : Task δ σ β} {next : β → Task δ σ α} (first : Peaceful task)
    (later : ∀ b, Peaceful (next b)) : Peaceful (task >>= next) := by
  intro now panics
  obtain panics | ⟨b, mid, -, panics⟩ := panics_bind.mp panics
  · exact first now panics
  · exact later b mid panics

theorem ofExcept (result : Except Error α) : Peaceful (Task.ofExcept result : Task δ σ α) := by
  cases result with
  | ok a => exact .pure a
  | error e => exact .fail e

theorem request (use : Machine → Except ChannelError α × Machine) :
    Peaceful (Task.request use : Task δ σ α) := by
  refine .bind (.asking use) ?_
  rintro (e | a)
  · exact .fail _
  · exact .pure a

theorem settle {task : Task δ σ α} (peaceful : Peaceful task) : Peaceful (Task.settle task) :=
  fun now panics => peaceful now (panics_settle.mp panics)

theorem within {part : δ → ε} {setPart : ε → δ → δ} {task : Task ε σ α}
    (peaceful : Peaceful task) : Peaceful (Task.within part setPart task) :=
  fun _ panics => peaceful _ (panics_within.mp panics)

end Peaceful

/-! ### Waiting -/

/-- The condition holds, and the turns to come follow the relation and do not panic. -/
structure Orderly (rely : Scene σ → Scene σ → Prop) (holds : δ → Scene σ → Prop)
    (now : Moment δ σ) : Prop extends Among rely holds now where
  peaceful : ∀ turn ∈ now.turns, turn.Peaceful

variable {rely : Scene σ → Scene σ → Prop} {holds : δ → Scene σ → Prop}

theorem ends_pause_orderly {now : Moment δ σ} (orderly : Orderly rely holds now)
    (stable : ∀ d scene scene', holds d scene → rely scene scene' → holds d scene') :
    Ends (pause now) (fun _ now => Orderly rely holds now)
      fun stop _ => ∀ cause, stop ≠ .halted (.panicked cause) := by
  refine ends_turn ?_ ?_ ?_
  · rintro - cause same
    cases same
  · intro turn rest scene turns passed
    have peaceful := orderly.peaceful
    rw [turns] at peaceful
    exact ⟨Turn.after_ok passed ▸ orderly.toAmong.next stable turns,
      fun turn mem => peaceful turn (List.mem_cons_of_mem _ mem)⟩
  · rintro turn rest h scene turns halted cause same
    cases same
    exact orderly.peaceful turn (turns ▸ List.mem_cons_self) _ _ _ halted

/-- Waiting does not panic if no poll does and no turn of the others. -/
theorem not_panics_await {poll : Task δ σ (Option α)} {now : Moment δ σ}
    (polls : ∀ now, Orderly rely holds now → Ends (poll now)
      (fun found now => found = none → Orderly rely holds now)
      fun stop _ => ∀ cause, stop ≠ .halted (.panicked cause))
    (stable : ∀ d scene scene', holds d scene → rely scene scene' → holds d scene')
    (start : Orderly rely holds now) : ¬ Panics (await poll now) := by
  have ends : Ends (await poll now) (fun _ _ => True)
      fun stop _ => ∀ cause, stop ≠ .halted (.panicked cause) := by
    refine ends_repeatWithin (Orderly rely holds) ?_ ?_ _ start
    · intro now orderly
      apply ends_bind
      refine (polls now orderly).mono ?_ fun _ _ ends => ends
      rintro (_ | a) mid ends
      · apply ends_bind
        exact (ends_pause_orderly (ends rfl) stable).mono (fun _ _ orderly => orderly)
          fun _ _ ends => ends
      · trivial
    · rintro now - cause same
      cases same
  rintro ⟨cause, now', panicked⟩
  rw [panicked] at ends
  exact ends cause rfl

end Task

end Conduit

/-
# Waiting, turn by turn

`Ends` says what holds however a task ends, but not why a wait ended without a value.
Here a wait is followed turn by turn: a vain poll is followed by one turn and the same
wait with the turns that are left (`await_none`). If no turn ends anything, a wait
without a value has used up all its turns, and its last poll was vain (`ends_await_all`).
-/

import Conduit.Proofs.Task.Ends

namespace Conduit

variable {δ σ α : Type}

/-- The turn ends nothing, and what it does is a step of the relation. -/
def Turn.Takes (rely : Scene σ → Scene σ → Prop) (turn : Turn σ) : Prop :=
  ∀ scene, ∃ scene', turn scene = .ok () scene' ∧ rely scene scene'

theorem Turn.Takes.follows {rely : Scene σ → Scene σ → Prop} {turn : Turn σ}
    (takes : turn.Takes rely) : turn.Follows rely := by
  intro scene
  obtain ⟨scene', passed, step⟩ := takes scene
  rw [Turn.after_ok passed]
  exact step

namespace Task

variable {poll : Task δ σ (Option α)} {now now' : Moment δ σ} {turn : Turn σ}
  {rest : List (Turn σ)} {scene : Scene σ}

/-! ### One poll -/

/-- After a vain poll the others act, and the poll is made again. -/
theorem await_none (vain : poll now = .ok none now') (same : now.turns.length = now'.turns.length)
    (turns : now'.turns = turn :: rest) (passed : turn now'.scene = .ok () scene) :
    await poll now = await poll { now' with scene, turns := rest } := by
  rw [await_eq, await_eq, same, turns, List.length_cons]
  apply repeatWithin_none
  exact (bind_ok vain).trans (bind_ok (pause_ok turns passed))

theorem await_none_halted {h : Halt} (vain : poll now = .ok none now')
    (turns : now'.turns = turn :: rest) (halted : turn now'.scene = .error h scene) :
    await poll now = .error (.halted h) { now' with scene, turns := rest } := by
  rw [await_eq]
  apply repeatWithin_error
  exact (bind_ok vain).trans (bind_error (pause_halted turns halted))

theorem await_none_stalled (vain : poll now = .ok none now') (turns : now'.turns = []) :
    await poll now = .error (.halted .stalled) now' := by
  rw [await_eq]
  apply repeatWithin_error
  exact (bind_ok vain).trans (bind_error (pause_stalled turns))

theorem await_error {stop : Stop} (polled : poll now = .error stop now') :
    await poll now = .error stop now' := by
  rw [await_eq]
  apply repeatWithin_error
  exact bind_error polled

/-! ### All polls -/

/-- The condition holds, and the turns to come end nothing and follow the relation. -/
structure Amid (rely : Scene σ → Scene σ → Prop) (holds : δ → Scene σ → Prop)
    (now : Moment δ σ) : Prop where
  here : holds now.self now.scene
  steady : ∀ turn ∈ now.turns, Turn.Takes rely turn

/-- A wait ends with the first poll that gives a value or stops, or else after the poll
for which no turn is left, which was vain as all before it. -/
theorem ends_await_all {rely : Scene σ → Scene σ → Prop} {holds : δ → Scene σ → Prop}
    (vain : δ → Scene σ → Prop) {done : α → Moment δ σ → Prop} {stopped : Stop → Moment δ σ → Prop}
    (polls : ∀ now, Amid rely holds now → Ends (poll now) (fun
      | none, now' => vain now'.self now'.scene ∧ now'.turns = now.turns
      | some a, now' => done a now') stopped)
    (again : ∀ d scene scene', vain d scene → rely scene scene' → holds d scene')
    (stalled : ∀ now, now.turns = [] → vain now.self now.scene → stopped (.halted .stalled) now)
    (start : Amid rely holds now) : Ends (await poll now) done stopped := by
  obtain ⟨d, scene, turns⟩ := now
  induction turns generalizing d scene with
  | nil =>
      have ends := polls _ start
      cases polled : poll ⟨d, scene, []⟩ with
      | ok value now' =>
          rw [polled] at ends
          cases value with
          | none =>
              obtain ⟨vainly, same⟩ := ends
              rw [await_none_stalled polled same]
              exact stalled now' same vainly
          | some a =>
              rw [await_ok polled]
              exact ends
      | error stop now' =>
          rw [polled] at ends
          rw [await_error polled]
          exact ends
  | cons turn rest ih =>
      have ends := polls _ start
      cases polled : poll ⟨d, scene, turn :: rest⟩ with
      | ok value now' =>
          rw [polled] at ends
          cases value with
          | none =>
              obtain ⟨vainly, same⟩ := ends
              obtain ⟨scene', passed, step⟩ := start.steady turn List.mem_cons_self now'.scene
              have length : (turn :: rest).length = now'.turns.length := congrArg _ same.symm
              rw [await_none polled length same passed]
              exact ih _ _ ⟨again _ _ _ vainly step, fun turn mem =>
                start.steady turn (List.mem_cons_of_mem _ mem)⟩
          | some a =>
              rw [await_ok polled]
              exact ends
      | error stop now' =>
          rw [polled] at ends
          rw [await_error polled]
          exact ends

end Task

end Conduit

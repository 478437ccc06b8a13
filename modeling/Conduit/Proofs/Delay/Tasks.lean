/-
# Tasks that wait a little longer

A task is `Unhurried` if more refusals for the moment change nothing but how long it waits:
if it completes, it completes on the delayed machine with the same outcome, leaves the same
behind, and lags by one empty turn for each refusal that it meets.

The rules follow the way a task is put together. A poll that is refused once more is vain
and changes nothing, so the wait takes one empty turn and polls again: `Unhurried.await`
asks for this of its polls (`Retries`), and goes on by induction on the refusals that are
left.
-/

import Conduit.Proofs.Delay.Runs
import Conduit.Proofs.Task.Waiting

namespace Conduit.Task

variable {δ ε σ α β : Type} {home : Cap} {n : Nat} {late : Machine} {now now' : Moment δ σ}

open Machine (Delayed Heedless Retriable)

/-! ### Tasks that complete -/

/-- The task completed: it returned a value, or it failed. -/
def completed (outcome : Except Error α) (now : Moment δ σ) : EStateM.Result Stop (Moment δ σ) α :=
  match outcome with
  | .ok a => .ok a now
  | .error e => .error (.failed e) now

section Completed

variable {outcome : Except Error α} {last : Moment δ σ}

theorem completed_inj {outcome' : Except Error α} {last' : Moment δ σ}
    (same : completed outcome last = completed outcome' last') :
    outcome = outcome' ∧ last = last' := by
  cases outcome with
  | ok a =>
      cases outcome' with
      | ok a' =>
          cases same
          exact ⟨rfl, rfl⟩
      | error e' => cases same
  | error e =>
      cases outcome' with
      | ok a' => cases same
      | error e' =>
          cases same
          exact ⟨rfl, rfl⟩

theorem bind_completed {task : Task δ σ β} {next : β → Task δ σ α}
    (ran : (task >>= next) now = completed outcome last) :
    (∃ b between, task now = .ok b between ∧ next b between = completed outcome last) ∨
      ∃ e, outcome = .error e ∧ task now = .error (.failed e) last := by
  cases first : task now with
  | ok b between =>
      rw [bind_ok first] at ran
      exact .inl ⟨b, between, rfl, ran⟩
  | error stop between =>
      rw [bind_error first] at ran
      cases outcome with
      | ok a => cases ran
      | error e =>
          cases ran
          exact .inr ⟨e, rfl, rfl⟩

theorem settle_completed {task : Task δ σ α} {outcome : Except Error (Except Error α)}
    (ran : settle task now = completed outcome last) :
    ∃ settled, outcome = .ok settled ∧ task now = completed settled last := by
  unfold settle at ran
  cases first : task now with
  | ok a between =>
      rw [first] at ran
      have settled : completed (.ok (.ok a)) between = completed outcome last := ran
      obtain ⟨rfl, rfl⟩ := completed_inj settled
      exact ⟨.ok a, rfl, rfl⟩
  | error stop between =>
      rw [first] at ran
      cases stop with
      | failed e =>
          have settled : completed (.ok (.error e)) between = completed outcome last := ran
          obtain ⟨rfl, rfl⟩ := completed_inj settled
          exact ⟨.error e, rfl, rfl⟩
      | halted h =>
          cases outcome with
          | ok settled => cases ran
          | error e => cases ran

theorem settle_of_completed {task : Task δ σ α} (ran : task now = completed outcome last) :
    settle task now = .ok outcome last := by
  cases outcome with
  | ok a => exact settle_ok ran
  | error e => exact settle_failed ran

theorem within_completed {part : δ → ε} {setPart : ε → δ → δ} {task : Task ε σ α}
    (ran : within part setPart task now = completed outcome last) :
    ∃ inner, task ⟨part now.self, now.scene, now.turns⟩ = completed outcome inner ∧
      last = ⟨setPart inner.self now.self, inner.scene, inner.turns⟩ := by
  unfold within at ran
  cases first : task ⟨part now.self, now.scene, now.turns⟩ with
  | ok a inner =>
      rw [first] at ran
      have ended : completed (.ok a) ⟨setPart inner.self now.self, inner.scene, inner.turns⟩ =
          completed outcome last := ran
      obtain ⟨rfl, rfl⟩ := completed_inj ended
      exact ⟨inner, rfl, rfl⟩
  | error stop inner =>
      rw [first] at ran
      cases outcome with
      | ok a => cases ran
      | error e =>
          cases ran
          exact ⟨inner, rfl, rfl⟩

theorem within_of_completed {part : δ → ε} {setPart : ε → δ → δ} {task : Task ε σ α}
    {inner : Moment ε σ}
    (ran : task ⟨part now.self, now.scene, now.turns⟩ = completed outcome inner) :
    within part setPart task now =
      completed outcome ⟨setPart inner.self now.self, inner.scene, inner.turns⟩ := by
  unfold within
  rw [ran]
  cases outcome with
  | ok a => rfl
  | error e => rfl

end Completed

/-! ### Tasks that are not hurried -/

/-- If the task completes from this moment on, it completes in the same way on the delayed
machine. -/
def UnhurriedAt (home : Cap) (n : Nat) (late : Machine) (task : Task δ σ α)
    (now : Moment δ σ) : Prop :=
  ∀ outcome now', task now = completed outcome now' →
    Lags home n late now now' fun _ start last => task start = completed outcome last

/-- More refusals for the moment change nothing but how long the task waits. -/
def Unhurried (home : Cap) (task : Task δ σ α) : Prop :=
  ∀ (now : Moment δ σ) (n : Nat) (late : Machine), Unseen home now →
    Delayed home n now.scene.machine late → UnhurriedAt home n late task now

/-- A task of which the outcome and what it leaves are known. -/
theorem UnhurriedAt.of_completed {task : Task δ σ α} {outcome : Except Error α}
    (ran : task now = completed outcome now')
    (lags : Lags home n late now now' fun _ start last => task start = completed outcome last) :
    UnhurriedAt home n late task now := by
  intro outcome' last ran'
  obtain ⟨rfl, rfl⟩ := completed_inj (ran.symm.trans ran')
  exact lags

theorem UnhurriedAt.of_halted {task : Task δ σ α} {h : Halt}
    (ran : task now = .error (.halted h) now') : UnhurriedAt home n late task now := by
  intro outcome last ran'
  rw [ran] at ran'
  cases outcome with
  | ok a => cases ran'
  | error e => cases ran'

theorem UnhurriedAt.bind {task : Task δ σ α} {next : α → Task δ σ β}
    (first : UnhurriedAt home n late task now) (unseen : Unseen home now)
    (delayed : Delayed home n now.scene.machine late)
    (later : ∀ a, Unhurried home (next a)) : UnhurriedAt home n late (task >>= next) now := by
  intro outcome last ran
  rcases bind_completed ran with ⟨a, between, one, two⟩ | ⟨e, rfl, one⟩
  · have lags := first (.ok a) between one
    refine (lags.trans fun n' late' delayed' =>
      later a between n' late' (lags.unseen unseen) delayed' outcome last two).mono delayed ?_
    rintro j k m turns last - - ⟨i, i', between, -, one, two⟩
    exact (bind_ok one).trans two
  · exact (first (.error e) last one).mono delayed fun _ _ _ _ _ _ _ one => bind_error one

namespace Unhurried

protected theorem bind {task : Task δ σ α} {next : α → Task δ σ β} (first : Unhurried home task)
    (later : ∀ a, Unhurried home (next a)) : Unhurried home (task >>= next) :=
  fun now n late unseen delayed => (first now n late unseen delayed).bind unseen delayed later

/-- A task that looks at nothing but the state of its party. -/
theorem instant {task : Task δ σ α} (run : δ → Except Error α × δ)
    (ran : ∀ now, task now = completed (run now.self).1 { now with self := (run now.self).2 }) :
    Unhurried home task :=
  fun now _ late _ delayed =>
    .of_completed (ran now) (.still delayed rfl (fun rest => ran (now.on _ rest))
      fun rest => ran (now.on late rest))

protected theorem pure (a : α) : Unhurried home (pure a : Task δ σ α) :=
  instant (fun d => (.ok a, d)) fun _ => rfl

theorem self : Unhurried home (Task.self : Task δ σ δ) :=
  instant (fun d => (.ok d, d)) fun _ => rfl

theorem setSelf (d : δ) : Unhurried home (Task.setSelf d : Task δ σ Unit) :=
  instant (fun _ => (.ok (), d)) fun _ => rfl

theorem modifySelf (change : δ → δ) : Unhurried home (Task.modifySelf change : Task δ σ Unit) :=
  instant (fun d => (.ok (), change d)) fun _ => rfl

theorem fail (e : Error) : Unhurried home (Task.fail e : Task δ σ α) :=
  instant (fun d => (.error e, d)) fun _ => rfl

/-- What would come after a failure does not matter. -/
theorem fail_bind (e : Error) (next : β → Task δ σ α) : Unhurried home (Task.fail e >>= next) :=
  instant (fun d => (.error e, d)) fun _ => rfl

theorem halt (h : Halt) : Unhurried home (Task.halt h : Task δ σ α) :=
  fun now _ _ _ _ => .of_halted (halt_apply h now)

theorem ofExcept (result : Except Error α) : Unhurried home (Task.ofExcept result : Task δ σ α) := by
  cases result with
  | ok a => exact .pure a
  | error e => exact .fail e

theorem orPanic (result : Except Panic α) : Unhurried home (Task.orPanic result : Task δ σ α) := by
  cases result with
  | ok a => exact .pure a
  | error cause => exact .halt _

protected theorem ite {c : Prop} [Decidable c] {task other : Task δ σ α}
    (first : Unhurried home task) (second : Unhurried home other) :
    Unhurried home (if c then task else other) := by
  by_cases here : c
  · rw [if_pos here]
    exact first
  · rw [if_neg here]
    exact second

/-- A check that fails the task or lets it go on. -/
theorem check {c : Prop} [Decidable c] {e : Error} {next : Unit → Task δ σ α}
    (later : Unhurried home (next ())) :
    Unhurried home (if c then Task.fail e >>= next else next ()) :=
  .ite (.fail_bind e next) later

/-! ### The machine -/

/-- What is read off the machine does not depend on the refusals. -/
theorem reads {next : Machine → Task δ σ α}
    (agree : ∀ n m late, Delayed home n m late → next late = next m)
    (later : ∀ m, Unhurried home (next m)) : Unhurried home (Task.machine >>= next) := by
  intro now n late unseen delayed outcome last ran
  refine (later now.scene.machine now n late unseen delayed outcome last ran).mono delayed ?_
  intro j k m turns last delayed _ one
  exact (congrFun (agree j now.scene.machine m delayed) _).trans one

/-- What is left on the machine may depend on what was found there. -/
theorem update {γ : Type} {use : Machine → Except Panic γ} (after : Machine → γ → Machine)
    {next : γ → Task δ σ α}
    (agree : ∀ n m late c, Delayed home n m late → use m = .ok c →
      ∃ c', use late = .ok c' ∧ next c' = next c ∧ Delayed home n (after m c) (after late c'))
    (later : ∀ c, Unhurried home (next c)) :
    Unhurried home (Task.machine >>= fun m => Task.orPanic (use m) >>= fun c =>
      Task.setMachine (after m c) >>= fun _ => next c) := by
  intro now n late unseen delayed
  cases used : use now.scene.machine with
  | error cause =>
      have panicked : (Task.machine >>= fun m => Task.orPanic (use m) >>= fun c =>
          Task.setMachine (after m c) >>= fun _ => next c) now =
            .error (.halted (.panicked cause)) now := by
        rw [machine_bind, used]
        rfl
      exact .of_halted panicked
  | ok c =>
      obtain ⟨c', used', same, delayed'⟩ := agree n _ late c delayed used
      intro outcome last ran
      rw [machine_bind, used, orPanic_ok, pure_bind, setMachine_bind] at ran
      have lags := later c
        { now with scene := { now.scene with machine := after now.scene.machine c } } n
        (after late c') unseen delayed' outcome last ran
      refine lags.after rfl (fun k turns last one => ?_) fun k turns last one => ?_
      · rw [machine_bind]
        simp only [Moment.on, used, orPanic_ok, pure_bind, setMachine_bind]
        exact one
      · rw [← same] at one
        rw [machine_bind]
        simp only [Moment.on, used', orPanic_ok, pure_bind, setMachine_bind]
        exact one

theorem onMachine {use : Machine → Except Panic (α × Machine)}
    (heedless : ∀ n m late a m', Delayed home n m late → use m = .ok (a, m') →
      ∃ late', use late = .ok (a, late') ∧ Delayed home n m' late') :
    Unhurried home (Task.onMachine use : Task δ σ α) := by
  refine update (fun _ (c : α × Machine) => c.2) (fun n m late c delayed used => ?_) fun c => ?_
  · obtain ⟨late', used', delayed'⟩ := heedless n m late c.1 c.2 delayed used
    exact ⟨(c.1, late'), used', rfl, delayed'⟩
  · exact .pure c.1

theorem asking {use : Machine → Except ChannelError α × Machine} (heedless : Heedless home use) :
    Unhurried home (Task.asking use : Task δ σ (Except ChannelError α)) := by
  intro now n late _ delayed
  obtain ⟨late', used, delayed'⟩ := heedless n _ late delayed
  have asked : ∀ now : Moment δ σ, Task.asking use now =
      completed (.ok (use now.scene.machine).1)
        { now with scene := { now.scene with machine := (use now.scene.machine).2 } } :=
    fun _ => rfl
  refine .of_completed (asked now) (.still delayed' rfl (fun rest => asked (now.on _ rest))
    fun rest => ?_)
  rw [asked (now.on late rest)]
  simp only [Moment.on, used]

theorem request {use : Machine → Except ChannelError α × Machine} (heedless : Heedless home use) :
    Unhurried home (Task.request use : Task δ σ α) := by
  refine .bind (.asking heedless) fun answer => ?_
  cases answer with
  | ok a => exact .pure a
  | error e => exact .fail _

/-! ### Parts of a task -/

theorem within {part : δ → ε} {setPart : ε → δ → δ} {task : Task ε σ α}
    (unhurried : Unhurried home task) : Unhurried home (Task.within part setPart task) := by
  intro now n late unseen delayed outcome last ran
  obtain ⟨inner, innerRan, rfl⟩ := within_completed ran
  have lags := unhurried ⟨part now.self, now.scene, now.turns⟩ n late unseen delayed outcome inner
    innerRan
  exact lags.outside fun _ _ _ _ one => within_of_completed one

theorem settle {task : Task δ σ α} (unhurried : Unhurried home task) :
    Unhurried home (Task.settle task) := by
  intro now n late unseen delayed outcome last ran
  obtain ⟨settled, rfl, taskRan⟩ := settle_completed ran
  exact (unhurried now n late unseen delayed settled last taskRan).mono
    delayed fun _ _ _ _ _ _ _ one => settle_of_completed one

/-- A turn passes on the delayed machine as it does here. -/
theorem pause : Unhurried home (Task.pause : Task δ σ Unit) := by
  intro now n late unseen delayed
  obtain ⟨self, scene, turns⟩ := now
  cases turns with
  | nil =>
      exact .of_halted (pause_stalled rfl)
  | cons turn rest =>
      cases passed : turn scene with
      | error h scene' =>
          exact .of_halted (pause_halted rfl passed)
      | ok u scene' =>
          obtain ⟨late', passed', delayed'⟩ :=
            unseen turn List.mem_cons_self n scene scene' late delayed passed
          have paused : Task.pause ⟨self, scene, turn :: rest⟩ =
              completed (.ok ()) ⟨self, scene', rest⟩ := pause_ok rfl passed
          refine .of_completed paused ⟨0, n, late', [⟨turn, scene⟩], [⟨turn, late, scene.others⟩],
            (Nat.zero_add n).symm, rfl, ?_, .turn turn scene.others delayed (.done n), ?_, delayed'⟩
          · rintro turns rest (_ | ⟨same, ⟨⟩⟩) -
            exact pause_ok rfl (same.trans passed)
          · rintro turns rest (_ | ⟨same, ⟨⟩⟩) -
            exact pause_ok rfl (same.trans passed')

end Unhurried

/-! ### Waiting -/

/-- A poll that is refused once more is vain and changes nothing; otherwise it ends as it
does here. -/
def Retries (home : Cap) (poll : Task δ σ (Option α)) : Prop :=
  ∀ (now : Moment δ σ) (n : Nat) (late : Machine), Unseen home now →
    Delayed home n now.scene.machine late →
    (∃ n' late', n = n' + 1 ∧ Delayed home n' now.scene.machine late' ∧
        ∀ turns, poll (now.on late turns) = .ok none (now.on late' turns)) ∨
      UnhurriedAt home n late poll now

/-- A round that is refused once more gives no value and takes one empty turn; otherwise it
ends as it does here. -/
def Patient (home : Cap) (round : Task δ σ (Option α)) : Prop :=
  ∀ (now : Moment δ σ) (n : Nat) (late : Machine), Unseen home now →
    Delayed home n now.scene.machine late →
    (∃ n' late', n = n' + 1 ∧ Delayed home n' now.scene.machine late' ∧
        ∀ turn turns, turn ⟨late', now.scene.others⟩ = .ok () ⟨late', now.scene.others⟩ →
          round (now.on late (turn :: turns)) = .ok none (now.on late' turns)) ∨
      UnhurriedAt home n late round now

theorem Unhurried.retries {poll : Task δ σ (Option α)} (unhurried : Unhurried home poll) :
    Retries home poll :=
  fun now n late unseen delayed => .inr (unhurried now n late unseen delayed)

theorem Unhurried.patient {round : Task δ σ (Option α)} (unhurried : Unhurried home round) :
    Patient home round :=
  fun now n late unseen delayed => .inr (unhurried now n late unseen delayed)

/-- A repetition ends with its last round. A bound that is larger by the number of refusals
does for the delayed machine. -/
def Repeats (bound : Nat) (round : Task δ σ (Option α)) (outcome : Except Error α) :
    Nat → Moment δ σ → Moment δ σ → Prop :=
  fun k start last => ∀ bound', bound + k ≤ bound' →
    repeatWithin bound' round start = completed outcome last

theorem repeatWithin_completed {round : Task δ σ (Option α)} {bound : Nat}
    {outcome : Except Error α} (ran : repeatWithin (bound + 1) round now = completed outcome now') :
    (∃ between, round now = .ok none between ∧
        repeatWithin bound round between = completed outcome now') ∨
      ∃ ended : Except Error (Option α), round now = completed ended now' ∧
        ∀ bound' start last, round start = completed ended last →
          repeatWithin (bound' + 1) round start = completed outcome last := by
  unfold repeatWithin at ran
  rcases bind_completed ran with ⟨_ | a, between, one, two⟩ | ⟨e, rfl, one⟩
  · exact .inl ⟨between, one, two⟩
  · have ended : completed (.ok a) between = completed outcome now' := two
    obtain ⟨rfl, rfl⟩ := completed_inj ended
    exact .inr ⟨.ok (some a), one, fun bound' start last same => repeatWithin_some bound' same⟩
  · refine .inr ⟨.error e, one, fun bound' start last same => ?_⟩
    unfold repeatWithin
    exact bind_error same

/-- A round that is not refused, and what is repeated after it. -/
theorem UnhurriedAt.repeats {round : Task δ σ (Option α)} {bound : Nat}
    {outcome : Except Error α} (unhurried : UnhurriedAt home n late round now)
    (delayed : Delayed home n now.scene.machine late)
    (later : ∀ between n' late', (Unseen home now → Unseen home between) →
      Delayed home n' between.scene.machine late' →
      repeatWithin bound round between = completed outcome now' →
      Lags home n' late' between now' (Repeats bound round outcome))
    (ran : repeatWithin (bound + 1) round now = completed outcome now') :
    Lags home n late now now' (Repeats (bound + 1) round outcome) := by
  rcases repeatWithin_completed ran with ⟨between, one, two⟩ | ⟨ended, one, ending⟩
  · have lags := unhurried (.ok none) between one
    refine (lags.trans fun n' late' delayed =>
      later between n' late' (fun unseen => lags.unseen unseen) delayed two).mono delayed ?_
    rintro - k m turns last - - ⟨i, j, between, rfl, one, two⟩ bound' enough
    obtain ⟨bound', rfl⟩ := Nat.exists_eq_add_one_of_ne_zero (by omega : bound' ≠ 0)
    rw [repeatWithin_none bound' one]
    exact two bound' (by omega)
  · refine (unhurried ended now' one).mono delayed fun _ k m turns last _ _ one bound' enough => ?_
    obtain ⟨bound', rfl⟩ := Nat.exists_eq_add_one_of_ne_zero (by omega : bound' ≠ 0)
    exact ending bound' _ last one

/-- Repeating a round takes one round more for each refusal. -/
theorem Patient.repeats {round : Task δ σ (Option α)} (patient : Patient home round)
    {bound : Nat} {outcome : Except Error α} (unseen : Unseen home now)
    (delayed : Delayed home n now.scene.machine late)
    (ran : repeatWithin bound round now = completed outcome now') :
    Lags home n late now now' (Repeats bound round outcome) := by
  induction bound generalizing now n late with
  | zero =>
      cases outcome with
      | ok a => cases ran
      | error e => cases ran
  | succ bound ih =>
      -- The refusals that come before this round are met first.
      induction n generalizing late with
      | zero =>
          rcases patient now 0 late unseen delayed with ⟨n', late', count, -⟩ | unhurried
          · cases count
          · exact unhurried.repeats delayed
              (fun between n' late' onward delayed => ih (onward unseen) delayed) ran
      | succ n ihn =>
          rcases patient now (n + 1) late unseen delayed with
            ⟨n', late', count, fewer, refused⟩ | unhurried
          · obtain rfl : n = n' := Nat.succ.inj count
            refine (ihn fewer).refused fewer fun k turn turns last idle runs bound' enough => ?_
            obtain ⟨bound', rfl⟩ := Nat.exists_eq_add_one_of_ne_zero (by omega : bound' ≠ 0)
            rw [repeatWithin_none bound' (refused turn turns idle)]
            exact runs bound' (by omega)
          · exact unhurried.repeats delayed
              (fun between n' late' onward delayed => ih (onward unseen) delayed) ran

theorem Retries.patient {poll : Task δ σ (Option α)} (retries : Retries home poll) :
    Patient home (pollOrPause poll) := by
  intro now n late unseen delayed
  rcases retries now n late unseen delayed with ⟨n', late', count, fewer, refused⟩ | unhurried
  · refine .inl ⟨n', late', count, fewer, fun turn turns idle => ?_⟩
    refine (bind_ok (refused (turn :: turns))).trans ?_
    exact bind_ok (pause_ok rfl idle)
  · refine .inr (unhurried.bind unseen delayed fun value => ?_)
    cases value with
    | some a => exact .pure _
    | none => exact .bind .pause fun _ => .pure _

/-- A wait takes one empty turn for each refusal that its polls meet. -/
theorem Unhurried.await {poll : Task δ σ (Option α)} (retries : Retries home poll) :
    Unhurried home (Task.await poll) := by
  intro now n late unseen delayed outcome last ran
  rw [await_eq] at ran
  refine (retries.patient.repeats unseen delayed ran).mono delayed
    fun _ k m turns last _ enough runs => ?_
  rw [await_eq]
  exact runs _ (by simp only [Moment.on]; omega)

/-! ### Polls that ask the kernel -/

theorem Retries.self {next : δ → Task δ σ (Option α)} (later : ∀ d, Retries home (next d)) :
    Retries home (Task.self >>= next) := by
  intro now n late unseen delayed
  rcases later now.self now n late unseen delayed with refused | unhurried
  · exact .inl refused
  · exact .inr fun outcome last ran => (unhurried outcome last ran).mono delayed
      fun _ _ _ _ _ _ _ one => one

/-- A poll that goes on with the kernel's answer, and is vain if the kernel refuses for the
moment. -/
theorem Retries.asking {use : Machine → Except ChannelError α × Machine}
    {next : Except ChannelError α → Task δ σ (Option β)} (retriable : Retriable home use)
    (vain : next (.error .transient) = pure none) (later : ∀ answer, Unhurried home (next answer)) :
    Retries home (Task.asking use >>= next) := by
  intro now n late unseen delayed
  rcases retriable n now.scene.machine late delayed with
    ⟨n', late', count, refused, fewer⟩ | ⟨late', answered, delayed'⟩
  · refine .inl ⟨n', late', count, fewer, fun turns => ?_⟩
    rw [asking_bind]
    simp only [Moment.on, refused, vain]
    rfl
  · refine .inr fun outcome last ran => ?_
    have lags := later (use now.scene.machine).1
      { now with scene := { now.scene with machine := (use now.scene.machine).2 } } n late' unseen
      delayed' outcome last ran
    refine lags.after rfl (fun _ _ _ one => one) fun k turns last one => ?_
    rw [asking_bind]
    simp only [Moment.on, answered]
    exact one

theorem Unhurried.awaitAnswer {use : Machine → Except ChannelError α × Machine}
    (retriable : Retriable home use) :
    Unhurried home (Task.awaitAnswer (Task.asking use) : Task δ σ (Except ChannelError α)) := by
  refine .await (.asking retriable rfl fun answer => ?_)
  cases answer with
  | ok a => exact .pure _
  | error e =>
      cases e with
      | transient => exact .pure _
      | _ => exact .pure _

end Conduit.Task

/-
# How tasks end

`Ends` says how a task may end from a moment on: with a value, or stopped. Its
rules follow the way a task is put together. What the others do while a task waits
is only known to follow a relation between scenes; `Among` is a condition together
with that promise, and the rules for waiting ask that the relation keeps the
condition.

* `ends_bind`, `ends_within`, `ends_settle` — parts of a task.
* `ends_pause`, `ends_repeatWithin`, `ends_polling`, `ends_await` — waiting.
* `Keeps` — a task that keeps a condition however it ends.
-/

import Conduit.Task

namespace Conduit

variable {δ ε σ α β : Type}

/-- The scene after a turn, whether or not the turn ended everything. -/
def Turn.after (turn : Turn σ) (scene : Scene σ) : Scene σ :=
  match turn scene with
  | .ok _ scene => scene
  | .error _ scene => scene

/-- Whatever the turn does is a step of the relation. -/
def Turn.Follows (rely : Scene σ → Scene σ → Prop) (turn : Turn σ) : Prop :=
  ∀ scene, rely scene (turn.after scene)

theorem Turn.after_ok {turn : Turn σ} {scene scene' : Scene σ} {u : Unit}
    (passed : turn scene = .ok u scene') : turn.after scene = scene' := by
  simp only [Turn.after, passed]

theorem Turn.after_error {turn : Turn σ} {scene scene' : Scene σ} {h : Halt}
    (halted : turn scene = .error h scene') : turn.after scene = scene' := by
  simp only [Turn.after, halted]

namespace Task

/-- The task ended with a value and a moment as in `done`, or stopped as in `stopped`. -/
def Ends (result : EStateM.Result Stop (Moment δ σ) α) (done : α → Moment δ σ → Prop)
    (stopped : Stop → Moment δ σ → Prop) : Prop :=
  match result with
  | .ok a now => done a now
  | .error stop now => stopped stop now

/-- The condition holds, and the turns to come follow the relation. -/
structure Among (rely : Scene σ → Scene σ → Prop) (holds : δ → Scene σ → Prop)
    (now : Moment δ σ) : Prop where
  here : holds now.self now.scene
  lawful : ∀ turn ∈ now.turns, Turn.Follows rely turn

variable {done : α → Moment δ σ → Prop} {stopped : Stop → Moment δ σ → Prop} {now : Moment δ σ}
  {rely : Scene σ → Scene σ → Prop} {holds : δ → Scene σ → Prop}

/-! ### Single steps -/

theorem bind_ok {task : Task δ σ α} {next : α → Task δ σ β} {a : α} {now now' : Moment δ σ}
    (ran : task now = .ok a now') : (task >>= next) now = next a now' := by
  simp only [bind, EStateM.bind, ran]

theorem bind_error {task : Task δ σ α} {next : α → Task δ σ β} {stop : Stop}
    {now now' : Moment δ σ} (ran : task now = .error stop now') :
    (task >>= next) now = .error stop now' := by
  simp only [bind, EStateM.bind, ran]

/-- A sequence that returned got through its first part. -/
theorem ok_of_bind {task : Task δ σ α} {next : α → Task δ σ β} {b : β} {now' : Moment δ σ}
    (ran : (task >>= next) now = .ok b now') :
    ∃ a mid, task now = .ok a mid ∧ next a mid = .ok b now' := by
  cases first : task now with
  | ok a mid => exact ⟨a, mid, rfl, (bind_ok first).symm.trans ran⟩
  | error stop mid => cases (bind_error first).symm.trans ran

theorem settle_ok {task : Task δ σ α} {a : α} {now now' : Moment δ σ}
    (ran : task now = .ok a now') : settle task now = .ok (.ok a) now' := by
  simp only [settle, ran]

theorem settle_failed {task : Task δ σ α} {e : Error} {now now' : Moment δ σ}
    (ran : task now = .error (.failed e) now') : settle task now = .ok (.error e) now' := by
  simp only [settle, ran]

@[simp] theorem self_bind (next : δ → Task δ σ α) (now : Moment δ σ) :
    (self >>= next) now = next now.self now := rfl

@[simp] theorem setSelf_bind (d : δ) (next : Unit → Task δ σ α) (now : Moment δ σ) :
    (setSelf d >>= next) now = next () { now with self := d } := rfl

@[simp] theorem modifySelf_bind (change : δ → δ) (next : Unit → Task δ σ α) (now : Moment δ σ) :
    (modifySelf change >>= next) now = next () { now with self := change now.self } := rfl

@[simp] theorem machine_bind (next : Machine → Task δ σ α) (now : Moment δ σ) :
    (machine >>= next) now = next now.scene.machine now := rfl

@[simp] theorem setMachine_bind (m : Machine) (next : Unit → Task δ σ α) (now : Moment δ σ) :
    (setMachine m >>= next) now = next () { now with scene := { now.scene with machine := m } } :=
  rfl

@[simp] theorem get_bind (next : Moment δ σ → Task δ σ α) (now : Moment δ σ) :
    ((get : Task δ σ (Moment δ σ)) >>= next) now = next now now := rfl

@[simp] theorem pure_apply (a : α) (now : Moment δ σ) : (pure a : Task δ σ α) now = .ok a now :=
  rfl

@[simp] theorem fail_apply (e : Error) (now : Moment δ σ) :
    (fail e : Task δ σ α) now = .error (.failed e) now := rfl

@[simp] theorem halt_apply (h : Halt) (now : Moment δ σ) :
    (halt h : Task δ σ α) now = .error (.halted h) now := rfl

@[simp] theorem orPanic_ok (a : α) : (orPanic (.ok a) : Task δ σ α) = pure a := rfl

@[simp] theorem asking_bind (use : Machine → Except ChannelError α × Machine)
    (next : Except ChannelError α → Task δ σ β) (now : Moment δ σ) :
    (asking use >>= next) now = next (use now.scene.machine).1
      { now with scene := { now.scene with machine := (use now.scene.machine).2 } } := rfl

theorem onMachine_ok {use : Machine → Except Panic (α × Machine)} {a : α} {m : Machine}
    (used : use now.scene.machine = .ok (a, m)) : (onMachine use : Task δ σ α) now =
      .ok a { now with scene := { now.scene with machine := m } } := by
  unfold onMachine
  simp only [machine_bind, used]
  rfl

theorem onMachine_panic {use : Machine → Except Panic (α × Machine)} {cause : Panic}
    (panicked : use now.scene.machine = .error cause) :
    (onMachine use : Task δ σ α) now = .error (.halted (.panicked cause)) now := by
  unfold onMachine
  simp only [machine_bind, panicked]
  rfl

/-- With no turn left, waiting is in vain. -/
theorem pause_stalled (turns : now.turns = []) : pause now = .error (.halted .stalled) now := by
  simp only [pause, turns]

theorem pause_ok {turn : Turn σ} {rest : List (Turn σ)} {scene : Scene σ} {u : Unit}
    (turns : now.turns = turn :: rest) (passed : turn now.scene = .ok u scene) :
    pause now = .ok () { now with scene, turns := rest } := by
  simp only [pause, turns, passed]

theorem pause_halted {turn : Turn σ} {rest : List (Turn σ)} {scene : Scene σ} {h : Halt}
    (turns : now.turns = turn :: rest) (halted : turn now.scene = .error h scene) :
    pause now = .error (.halted h) { now with scene, turns := rest } := by
  simp only [pause, turns, halted]

/-- Letting the others act ends as their next turn does, if there is one. -/
theorem ends_turn {done : Unit → Moment δ σ → Prop}
    (stalled : now.turns = [] → stopped (.halted .stalled) now)
    (passed : ∀ turn rest scene, now.turns = turn :: rest → turn now.scene = .ok () scene →
      done () { now with scene, turns := rest })
    (halted : ∀ turn rest h scene, now.turns = turn :: rest → turn now.scene = .error h scene →
      stopped (.halted h) { now with scene, turns := rest }) :
    Ends (pause now) done stopped := by
  cases turns : now.turns with
  | nil =>
      rw [pause_stalled turns]
      exact stalled turns
  | cons turn rest =>
      cases ran : turn now.scene with
      | ok u scene =>
          rw [pause_ok turns ran]
          exact passed turn rest scene turns ran
      | error h scene =>
          rw [pause_halted turns ran]
          exact halted turn rest h scene turns ran

/-- A turn that passed is the next one, and acts on the scene alone. -/
theorem turn_of_pause {now' : Moment δ σ} (paused : pause now = .ok () now') :
    ∃ turn rest scene, now.turns = turn :: rest ∧ turn now.scene = .ok () scene ∧
      now' = { now with scene, turns := rest } := by
  have ends : Ends (pause now) (fun _ last => ∃ turn rest scene, now.turns = turn :: rest ∧
      turn now.scene = .ok () scene ∧ last = { now with scene, turns := rest })
      fun _ _ => True :=
    ends_turn (fun _ => trivial)
      (fun turn rest scene turns passed => ⟨turn, rest, scene, turns, passed, rfl⟩)
      fun _ _ _ _ _ _ => trivial
  rw [paused] at ends
  exact ends

theorem self_of_pause {now' : Moment δ σ} (paused : pause now = .ok () now') :
    now'.self = now.self := by
  obtain ⟨-, -, -, -, -, rfl⟩ := turn_of_pause paused
  rfl

/-- A turn that passed is a step of the relation, and those that are left follow it too. -/
theorem follows_of_pause {now' : Moment δ σ} (paused : pause now = .ok () now')
    (lawful : ∀ turn ∈ now.turns, Turn.Follows rely turn) :
    ∃ scene rest, now' = { now with scene, turns := rest } ∧ rely now.scene scene ∧
      ∀ turn ∈ rest, Turn.Follows rely turn := by
  obtain ⟨turn, rest, scene, turns, passed, rfl⟩ := turn_of_pause paused
  rw [turns] at lawful
  have follows := lawful turn List.mem_cons_self now.scene
  rw [Turn.after_ok passed] at follows
  exact ⟨scene, rest, rfl, follows, fun turn mem => lawful turn (List.mem_cons_of_mem _ mem)⟩

theorem of_onMachine_ok {use : Machine → Except Panic (α × Machine)} {a : α} {now' : Moment δ σ}
    (ran : onMachine use now = .ok a now') : ∃ m, use now.scene.machine = .ok (a, m) ∧
      now' = { now with scene := { now.scene with machine := m } } := by
  cases used : use now.scene.machine with
  | error cause => cases (onMachine_panic used).symm.trans ran
  | ok result =>
      cases (onMachine_ok used).symm.trans ran
      exact ⟨_, rfl, rfl⟩

/-- What was asked for was granted. -/
theorem of_request_ok {use : Machine → Except ChannelError α × Machine} {a : α}
    {now' : Moment δ σ} (ran : request use now = .ok a now') :
    (use now.scene.machine).1 = .ok a ∧
      now' = { now with scene := { now.scene with machine := (use now.scene.machine).2 } } := by
  unfold request at ran
  rw [asking_bind] at ran
  cases answered : (use now.scene.machine).1 with
  | error e =>
      rw [answered] at ran
      cases ran
  | ok a' =>
      rw [answered] at ran
      cases ran
      exact ⟨rfl, rfl⟩

/-! ### Runs on given moments -/

/-- What a task that failed leaves behind. -/
def failure? : EStateM.Result Stop (Moment δ σ) α → Option (Error × Moment δ σ)
  | .error (.failed e) now => some (e, now)
  | _ => none

/-- What a task that returned leaves behind. -/
def success? : EStateM.Result Stop (Moment δ σ) α → Option (α × Moment δ σ)
  | .ok a now => some (a, now)
  | _ => none

/-- What a task that ended with everything leaves behind. -/
def halted? : EStateM.Result Stop (Moment δ σ) α → Option (Halt × Moment δ σ)
  | .error (.halted h) now => some (h, now)
  | _ => none

theorem failure?_eq_some {result : EStateM.Result Stop (Moment δ σ) α} {e : Error}
    (failed : failure? result = some (e, now)) :
    result = .error (.failed e) now := by
  cases result with
  | ok a now' => cases failed
  | error stop now' =>
      cases stop with
      | failed e' =>
          cases failed
          rfl
      | halted h => cases failed

theorem success?_eq_some {result : EStateM.Result Stop (Moment δ σ) α} {a : α}
    (returned : success? result = some (a, now)) : result = .ok a now := by
  cases result with
  | ok a' now' =>
      cases returned
      rfl
  | error stop now' => cases returned

theorem halted?_eq_some {result : EStateM.Result Stop (Moment δ σ) α} {h : Halt}
    (halted : halted? result = some (h, now)) : result = .error (.halted h) now := by
  cases result with
  | ok a now' => cases halted
  | error stop now' =>
      cases stop with
      | failed e => cases halted
      | halted h' =>
          cases halted
          rfl

/-! ### Parts of a task -/

theorem Ends.mono {result : EStateM.Result Stop (Moment δ σ) α}
    {done' : α → Moment δ σ → Prop} {stopped' : Stop → Moment δ σ → Prop}
    (ends : Ends result done stopped) (onDone : ∀ a now, done a now → done' a now)
    (onStopped : ∀ stop now, stopped stop now → stopped' stop now) :
    Ends result done' stopped' := by
  cases result with
  | ok a now => exact onDone a now ends
  | error stop now => exact onStopped stop now ends

/-- What two rules say of one ending. -/
theorem Ends.elim {result : EStateM.Result Stop (Moment δ σ) α}
    {done' : α → Moment δ σ → Prop} {stopped' : Stop → Moment δ σ → Prop} {p : Prop}
    (first : Ends result done stopped) (second : Ends result done' stopped')
    (onDone : ∀ a now, done a now → done' a now → p)
    (onStopped : ∀ stop now, stopped stop now → stopped' stop now → p) : p := by
  cases result with
  | ok a now => exact onDone a now first second
  | error stop now => exact onStopped stop now first second

theorem ends_bind {task : Task δ σ β} {next : β → Task δ σ α}
    (ends : Ends (task now) (fun b now => Ends (next b now) done stopped) stopped) :
    Ends ((task >>= next) now) done stopped := by
  cases ran : task now with
  | ok b now' =>
      rw [bind_ok ran]
      rw [ran] at ends
      exact ends
  | error stop now' =>
      rw [bind_error ran]
      rw [ran] at ends
      exact ends

theorem ends_within {part : δ → ε} {setPart : ε → δ → δ} {task : Task ε σ α}
    (ends : Ends (task ⟨part now.self, now.scene, now.turns⟩)
      (fun a inner => done a ⟨setPart inner.self now.self, inner.scene, inner.turns⟩)
      fun stop inner => stopped stop ⟨setPart inner.self now.self, inner.scene, inner.turns⟩) :
    Ends (within part setPart task now) done stopped := by
  unfold within
  cases ran : task ⟨part now.self, now.scene, now.turns⟩ with
  | ok a inner =>
      rw [ran] at ends
      exact ends
  | error stop inner =>
      rw [ran] at ends
      exact ends

theorem ends_settle {task : Task δ σ α} {done : Except Error α → Moment δ σ → Prop}
    (ends : Ends (task now) (fun a now => done (.ok a) now) fun stop now =>
      match stop with
      | .failed e => done (.error e) now
      | .halted h => stopped (.halted h) now) :
    Ends (settle task now) done stopped := by
  unfold settle
  cases ran : task now with
  | ok a now' =>
      rw [ran] at ends
      exact ends
  | error stop now' =>
      rw [ran] at ends
      cases stop with
      | failed e => exact ends
      | halted h => exact ends

/-! ### Waiting -/

theorem repeatWithin_some {round : Task δ σ (Option α)} {a : α} {now' : Moment δ σ} (bound : Nat)
    (ran : round now = .ok (some a) now') : repeatWithin (bound + 1) round now = .ok a now' := by
  unfold repeatWithin
  rw [bind_ok ran]
  rfl

theorem repeatWithin_none {round : Task δ σ (Option α)} {now' : Moment δ σ} (bound : Nat)
    (ran : round now = .ok none now') :
    repeatWithin (bound + 1) round now = repeatWithin bound round now' := by
  conv => lhs; unfold repeatWithin
  rw [bind_ok ran]

theorem repeatWithin_error {round : Task δ σ (Option α)} {stop : Stop} {now' : Moment δ σ}
    (bound : Nat) (ran : round now = .error stop now') :
    repeatWithin (bound + 1) round now = .error stop now' := by
  unfold repeatWithin
  rw [bind_error ran]

/-- A poll, and a turn if it was vain. -/
def pollOrPause (poll : Task δ σ (Option α)) : Task δ σ (Option α) := do
  match ← poll with
  | some a => return some a
  | none =>
      pause
      return none

theorem await_eq (poll : Task δ σ (Option α)) (now : Moment δ σ) :
    await poll now = repeatWithin (now.turns.length + 1) (pollOrPause poll) now := rfl

/-- A poll that gives a value at once waits for nobody. -/
theorem await_ok {poll : Task δ σ (Option α)} {a : α} {now now' : Moment δ σ}
    (polled : poll now = .ok (some a) now') : await poll now = .ok a now' := by
  rw [await_eq]
  exact repeatWithin_some _ (bind_ok polled)

/-- A final answer of the kernel waits for nobody. -/
theorem awaitAnswer_ok {attempt : Task δ σ (Except ChannelError α)}
    {answer : Except ChannelError α} {now now' : Moment δ σ}
    (attempted : attempt now = .ok answer now') (final : answer ≠ .error .transient) :
    awaitAnswer attempt now = .ok answer now' := by
  apply await_ok
  rw [bind_ok attempted]
  cases answer with
  | ok a => rfl
  | error e =>
      cases e with
      | transient => exact absurd rfl final
      | _ => rfl

/-- The next turn keeps what the steps of the others keep. -/
theorem Among.next {turn : Turn σ} {rest : List (Turn σ)} (among : Among rely holds now)
    (stable : ∀ d scene scene', holds d scene → rely scene scene' → holds d scene')
    (turns : now.turns = turn :: rest) :
    Among rely holds { now with scene := turn.after now.scene, turns := rest } := by
  have lawful := among.lawful
  rw [turns] at lawful
  exact ⟨stable _ _ _ among.here (lawful turn List.mem_cons_self now.scene),
    fun turn mem => lawful turn (List.mem_cons_of_mem _ mem)⟩

/-- Letting the others act keeps what their steps keep. -/
theorem ends_pause (among : Among rely holds now)
    (stable : ∀ d scene scene', holds d scene → rely scene scene' → holds d scene') :
    Ends (pause now) (fun _ now => Among rely holds now) fun stop now =>
      (∃ h, stop = .halted h) ∧ Among rely holds now := by
  refine ends_turn ?_ ?_ ?_
  · exact fun _ => ⟨⟨_, rfl⟩, among⟩
  · intro turn rest scene turns passed
    exact Turn.after_ok passed ▸ among.next stable turns
  · intro turn rest h scene turns halted
    exact ⟨⟨h, rfl⟩, Turn.after_error halted ▸ among.next stable turns⟩

/-- A condition that every vain round keeps holds until a round gives a value. -/
theorem ends_repeatWithin (invariant : Moment δ σ → Prop) {round : Task δ σ (Option α)}
    (rounds : ∀ now, invariant now → Ends (round now) (fun
      | none, now => invariant now
      | some a, now => done a now) stopped)
    (exhausted : ∀ now, invariant now → stopped (.halted .stalled) now) (bound : Nat)
    {now : Moment δ σ} (start : invariant now) :
    Ends (repeatWithin bound round now) done stopped := by
  induction bound generalizing now with
  | zero => exact exhausted now start
  | succ bound ih =>
      apply ends_bind
      refine (rounds now start).mono ?_ fun _ _ stops => stops
      rintro (_ | a) now' ends
      · exact ih ends
      · exact ends

/-- A condition that vain polls and turns keep holds until a poll gives a value. -/
theorem ends_polling (invariant : Moment δ σ → Prop) {poll : Task δ σ (Option α)}
    (polls : ∀ now, invariant now → Ends (poll now) (fun
      | none, now => invariant now
      | some a, now => done a now) stopped)
    (pauses : ∀ now, invariant now → Ends (pause now) (fun _ now => invariant now) stopped)
    (exhausted : ∀ now, invariant now → stopped (.halted .stalled) now)
    (start : invariant now) : Ends (await poll now) done stopped := by
  apply ends_repeatWithin invariant
  · intro now holds
    apply ends_bind
    refine (polls now holds).mono ?_ fun _ _ stops => stops
    rintro (_ | a) now' ends
    · exact ends_bind (pauses now' ends)
    · exact ends
  · exact exhausted
  · exact start

/-- A condition that vain polls keep, and that the others keep, holds until a poll
gives a value. -/
theorem ends_await (holds : δ → Scene σ → Prop) {poll : Task δ σ (Option α)}
    (polls : ∀ now, Among rely holds now → Ends (poll now) (fun
      | none, now => Among rely holds now
      | some a, now => done a now) stopped)
    (stable : ∀ d scene scene', holds d scene → rely scene scene' → holds d scene')
    (halted : ∀ h now, Among rely holds now → stopped (.halted h) now)
    (start : Among rely holds now) : Ends (await poll now) done stopped := by
  apply ends_polling (Among rely holds) polls
  · intro now among
    refine (ends_pause among stable).mono (fun _ _ among => among) ?_
    rintro _ now' ⟨⟨h, rfl⟩, among⟩
    exact halted h now' among
  · exact fun now among => halted .stalled now among
  · exact start

/-! ### Keeping a condition -/

/-- However the task ends, the condition holds again. -/
def Keeps (invariant : Moment δ σ → Prop) (task : Task δ σ α) : Prop :=
  ∀ now, invariant now → Ends (task now) (fun _ now => invariant now) fun _ now => invariant now

namespace Keeps

variable {invariant : Moment δ σ → Prop}

protected theorem pure (a : α) : Keeps invariant (pure a : Task δ σ α) := fun _ holds => holds

theorem fail (e : Error) : Keeps invariant (Task.fail e : Task δ σ α) := fun _ holds => holds

/-- Nothing is done after a failure. -/
theorem fail_bind (e : Error) (next : β → Task δ σ α) :
    Keeps invariant (Task.fail e >>= next) := fun _ holds => holds

theorem self : Keeps invariant (Task.self : Task δ σ δ) := fun _ holds => holds

theorem get : Keeps invariant (get : Task δ σ (Moment δ σ)) := fun _ holds => holds

protected theorem bind {task : Task δ σ α} {next : α → Task δ σ β} (first : Keeps invariant task)
    (later : ∀ a, Keeps invariant (next a)) : Keeps invariant (task >>= next) := by
  intro now holds
  apply ends_bind
  exact (first now holds).mono (fun a now' holds => later a now' holds) fun _ _ holds => holds

theorem settle {task : Task δ σ α} (keeps : Keeps invariant task) :
    Keeps invariant (Task.settle task) := by
  intro now holds
  apply ends_settle
  refine (keeps now holds).mono (fun _ _ holds => holds) ?_
  rintro (e | h) now holds
  · exact holds
  · exact holds

theorem repeatWithin {round : Task δ σ (Option α)} (rounds : Keeps invariant round) (bound : Nat) :
    Keeps invariant (Task.repeatWithin bound round) := by
  intro now start
  apply ends_repeatWithin invariant
  · intro now holds
    refine (rounds now holds).mono ?_ fun _ _ holds => holds
    rintro (_ | a) now' holds
    · exact holds
    · exact holds
  · exact fun _ holds => holds
  · exact start

/-- Waiting keeps what the polls and the turns keep. -/
theorem polling {poll : Task δ σ (Option α)} (polls : Keeps invariant poll)
    (pauses : Keeps invariant pause) : Keeps invariant (Task.await poll) := by
  intro now start
  apply ends_polling invariant
  · intro now holds
    refine (polls now holds).mono ?_ fun _ _ holds => holds
    rintro (_ | a) now' holds
    · exact holds
    · exact holds
  · exact pauses
  · exact fun _ holds => holds
  · exact start

theorem pause (stable : ∀ d scene scene', holds d scene → rely scene scene' → holds d scene') :
    Keeps (Among rely holds) (Task.pause : Task δ σ Unit) := by
  intro now among
  exact (ends_pause among stable).mono (fun _ _ among => among) fun _ _ ends => ends.2

theorem await {poll : Task δ σ (Option α)} (polls : Keeps (Among rely holds) poll)
    (stable : ∀ d scene scene', holds d scene → rely scene scene' → holds d scene') :
    Keeps (Among rely holds) (Task.await poll) := Keeps.polling polls (Keeps.pause stable)

end Keeps

end Task

end Conduit

/-
# Where a task leads

`Leads` says how a task may end together with the strides up to there: with a value, with a
failure, or because everything ends, and then whose fault that is. Its rules follow the way
a task is put together. A wait is followed turn by turn, so a task that is left waiting has
got as far as the strides say.
-/

import Conduit.Proofs.Call.Conduct.Deal

namespace Conduit.Rpc

variable {η σ α β : Type} [Handler η σ] {terms : Terms σ} {phase : Phase}
  {now : Moment (Rpc η) σ} {done : α → List Event → Phase → Moment (Rpc η) σ → Prop}
  {failed : Error → List Event → Phase → Moment (Rpc η) σ → Prop}

/-- However the task ends, it went by strides, and the end is as told. -/
def Leads (terms : Terms σ) (task : Task (Rpc η) σ α) (phase : Phase) (now : Moment (Rpc η) σ)
    (done : α → List Event → Phase → Moment (Rpc η) σ → Prop)
    (failed : Error → List Event → Phase → Moment (Rpc η) σ → Prop) : Prop :=
  Task.Ends (task now)
    (fun a now' => ∃ events phase', Course terms (phase, now) events (phase', now') ∧
      done a events phase' now')
    fun stop now' =>
      match stop with
      | .failed e => ∃ events phase', Course terms (phase, now) events (phase', now') ∧
          failed e events phase' now'
      | .halted h => ∃ events stage, Course terms (phase, now) events stage ∧ Blame h stage

namespace Leads

variable {task : Task (Rpc η) σ α}

theorem mono {done' : α → List Event → Phase → Moment (Rpc η) σ → Prop}
    {failed' : Error → List Event → Phase → Moment (Rpc η) σ → Prop}
    (leads : Leads terms task phase now done failed)
    (onDone : ∀ a events phase' now', done a events phase' now' → done' a events phase' now')
    (onFailed : ∀ e events phase' now', failed e events phase' now' →
      failed' e events phase' now') :
    Leads terms task phase now done' failed' := by
  refine Task.Ends.mono leads ?_ ?_
  · rintro a now' ⟨events, phase', course, ends⟩
    exact ⟨events, phase', course, onDone _ _ _ _ ends⟩
  · rintro (e | h) now' ends
    · obtain ⟨events, phase', course, ends⟩ := ends
      exact ⟨events, phase', course, onFailed _ _ _ _ ends⟩
    · exact ends

/-- What is told of a run that returned. -/
theorem of_ok {a : α} {now' : Moment (Rpc η) σ} (leads : Leads terms task phase now done failed)
    (ran : task now = .ok a now') : ∃ events phase',
      Course terms (phase, now) events (phase', now') ∧ done a events phase' now' := by
  unfold Leads at leads
  rwa [ran] at leads

/-- What comes later has the strides before it in front. -/
theorem after {phase' : Phase} {mid : Moment (Rpc η) σ} {events : List Event}
    (course : Course terms (phase, now) events (phase', mid))
    (leads : Leads terms task phase' mid (fun a more => done a (events ++ more))
      fun e more => failed e (events ++ more)) :
    Task.Ends (task mid)
      (fun a now' => ∃ events phase', Course terms (phase, now) events (phase', now') ∧
        done a events phase' now')
      fun stop now' =>
        match stop with
        | .failed e => ∃ events phase', Course terms (phase, now) events (phase', now') ∧
            failed e events phase' now'
        | .halted h => ∃ events stage, Course terms (phase, now) events stage ∧ Blame h stage := by
  refine Task.Ends.mono leads ?_ ?_
  · rintro a now' ⟨more, last, later, ends⟩
    exact ⟨_, last, course.append later, ends⟩
  · rintro (e | h) now' ends
    · obtain ⟨more, last, later, ends⟩ := ends
      exact ⟨_, last, course.append later, ends⟩
    · obtain ⟨more, stage, later, blame⟩ := ends
      exact ⟨_, stage, course.append later, blame⟩

end Leads

/-! ### Parts of a task -/

theorem leads_pure {a : α} (ends : done a [] phase now) :
    Leads terms (pure a : Task (Rpc η) σ α) phase now done failed := ⟨[], phase, .nil _, ends⟩

theorem leads_fail {e : Error} (ends : failed e [] phase now) :
    Leads terms (Task.fail e : Task (Rpc η) σ α) phase now done failed :=
  ⟨[], phase, .nil _, ends⟩

theorem leads_panic {cause : Panic} (blame : Blame (.panicked cause) (phase, now)) :
    Leads terms (Task.panic cause : Task (Rpc η) σ α) phase now done failed :=
  ⟨[], (phase, now), .nil _, blame⟩

theorem leads_ofExcept {result : Except Error α} (onOk : ∀ a, result = .ok a → done a [] phase now)
    (onError : ∀ e, result = .error e → failed e [] phase now) :
    Leads terms (Task.ofExcept result) phase now done failed := by
  cases result with
  | ok a => exact leads_pure (onOk a rfl)
  | error e => exact leads_fail (onError e rfl)

theorem leads_bind {task : Task (Rpc η) σ β} {next : β → Task (Rpc η) σ α}
    (leads : Leads terms task phase now
      (fun b events phase' mid => Leads terms (next b) phase' mid (fun a more => done a (events ++ more))
        fun e more => failed e (events ++ more)) failed) :
    Leads terms (task >>= next) phase now done failed := by
  apply Task.ends_bind
  refine Task.Ends.mono leads ?_ ?_
  · rintro b mid ⟨events, phase', course, later⟩
    exact later.after course
  · rintro (e | h) now' ends
    · exact ends
    · exact ends

theorem leads_settle {task : Task (Rpc η) σ α}
    {done : Except Error α → List Event → Phase → Moment (Rpc η) σ → Prop}
    (leads : Leads terms task phase now (fun a => done (.ok a)) fun e => done (.error e)) :
    Leads terms (Task.settle task) phase now done failed := by
  apply Task.ends_settle
  refine Task.Ends.mono leads (fun _ _ ends => ends) ?_
  rintro (e | h) now' ends
  · exact ends
  · exact ends

/-- A step before the task is the first of its strides. -/
theorem leads_deal {phase' : Phase} {rpc : Rpc η} {m : Machine} {events : List Event}
    {task : Task (Rpc η) σ α} (deal : Deal terms.calls terms.notices
      ⟨phase, now.self, now.scene.machine⟩ events ⟨phase', rpc, m⟩)
    (leads : Leads terms task phase'
      { now with self := rpc, scene := { now.scene with machine := m } }
      (fun a more => done a (events ++ more)) fun e more => failed e (events ++ more)) :
    Task.Ends (task { now with self := rpc, scene := { now.scene with machine := m } })
      (fun a now' => ∃ events phase', Course terms (phase, now) events (phase', now') ∧
        done a events phase' now')
      fun stop now' =>
        match stop with
        | .failed e => ∃ events phase', Course terms (phase, now) events (phase', now') ∧
            failed e events phase' now'
        | .halted h => ∃ events stage, Course terms (phase, now) events stage ∧ Blame h stage :=
  leads.after (.single (.deal deal))

/-- What is in hand may change by a step that changes nothing else. -/
theorem leads_phase {phase' : Phase} (deal : Deal terms.calls terms.notices
      ⟨phase, now.self, now.scene.machine⟩ [] ⟨phase', now.self, now.scene.machine⟩)
    {task : Task (Rpc η) σ α} (leads : Leads terms task phase' now done failed) :
    Leads terms task phase now done failed := leads.after (.single (.deal deal))

theorem leads_self_bind {next : Rpc η → Task (Rpc η) σ α}
    (leads : Leads terms (next now.self) phase now done failed) :
    Leads terms (Task.self >>= next) phase now done failed := leads

theorem leads_machine_bind {next : Machine → Task (Rpc η) σ α}
    (leads : Leads terms (next now.scene.machine) phase now done failed) :
    Leads terms (Task.machine >>= next) phase now done failed := leads

/-- What the party notes is a step. -/
theorem leads_setSelf_bind {rpc : Rpc η} {events : List Event} {phase' : Phase}
    {next : Unit → Task (Rpc η) σ α} (deal : Deal terms.calls terms.notices
      ⟨phase, now.self, now.scene.machine⟩ events ⟨phase', rpc, now.scene.machine⟩)
    (leads : Leads terms (next ()) phase' { now with self := rpc }
      (fun a more => done a (events ++ more)) fun e more => failed e (events ++ more)) :
    Leads terms (Task.setSelf rpc >>= next) phase now done failed := by
  unfold Leads
  rw [Task.setSelf_bind]
  exact leads.after (.single (.deal deal))

theorem leads_modifySelf_bind {change : Rpc η → Rpc η} {events : List Event} {phase' : Phase}
    {next : Unit → Task (Rpc η) σ α} (deal : Deal terms.calls terms.notices
      ⟨phase, now.self, now.scene.machine⟩ events ⟨phase', change now.self, now.scene.machine⟩)
    (leads : Leads terms (next ()) phase' { now with self := change now.self }
      (fun a more => done a (events ++ more)) fun e more => failed e (events ++ more)) :
    Leads terms (Task.modifySelf change >>= next) phase now done failed := by
  unfold Leads
  rw [Task.modifySelf_bind]
  exact leads.after (.single (.deal deal))

/-- Asking the kernel for something is a step. -/
theorem leads_request {use : Machine → Except ChannelError α × Machine}
    (deal : Deal terms.calls terms.notices ⟨phase, now.self, now.scene.machine⟩ []
      ⟨phase, now.self, (use now.scene.machine).2⟩)
    (onOk : ∀ a, (use now.scene.machine).1 = .ok a → done a [] phase
      { now with scene := { now.scene with machine := (use now.scene.machine).2 } })
    (onError : ∀ cause, (use now.scene.machine).1 = .error cause →
      failed (Error.ofChannel cause) [] phase
        { now with scene := { now.scene with machine := (use now.scene.machine).2 } }) :
    Leads terms (Task.request use) phase now done failed := by
  unfold Task.request Leads
  rw [Task.asking_bind]
  rcases answered : use now.scene.machine with ⟨cause | a, m⟩
  · rw [answered] at deal onError
    exact leads_deal deal (leads_fail (onError cause rfl))
  · rw [answered] at deal onOk
    exact leads_deal deal (leads_pure (onOk a rfl))

/-- So is using the machine in a way that may panic. -/
theorem leads_onMachine {use : Machine → Except Panic (α × Machine)}
    (onOk : ∀ a m, use now.scene.machine = .ok (a, m) →
      Deal terms.calls terms.notices ⟨phase, now.self, now.scene.machine⟩ []
        ⟨phase, now.self, m⟩ ∧
      done a [] phase { now with scene := { now.scene with machine := m } })
    (onPanic : ∀ cause, use now.scene.machine = .error cause →
      Blame (.panicked cause) (phase, now)) :
    Leads terms (Task.onMachine use) phase now done failed := by
  unfold Leads
  cases used : use now.scene.machine with
  | error cause =>
      rw [Task.onMachine_panic used]
      exact ⟨[], _, .nil _, onPanic cause used⟩
  | ok result =>
      obtain ⟨a, m⟩ := result
      obtain ⟨deal, ends⟩ := onOk a m used
      rw [Task.onMachine_ok used]
      exact ⟨[], _, .single (.deal deal), ends⟩

/-! ### Waiting -/

omit [Handler η σ] in
/-- No step adds a turn. -/
theorem Course.turns_le {stage stage' : Stage η σ} {events : List Event}
    (course : Course terms stage events stage') :
    stage'.2.turns.length ≤ stage.2.turns.length := by
  induction course with
  | nil => exact Nat.le_refl _
  | next _ last ih =>
      refine Nat.le_trans ?_ ih
      cases last with
      | deal => exact Nat.le_refl _
      | aside => exact Nat.le_refl _
      | pass paused =>
          obtain ⟨turn, rest, scene, turns, -, rfl⟩ := Task.turn_of_pause paused
          simp [turns]

/-- The steps up to the end are told with it. -/
theorem Leads.coursed {task : Task (Rpc η) σ α} (leads : Leads terms task phase now done failed) :
    Leads terms task phase now
      (fun a events phase' now' =>
        Course terms (phase, now) events (phase', now') ∧ done a events phase' now')
      fun e events phase' now' =>
        Course terms (phase, now) events (phase', now') ∧ failed e events phase' now' := by
  refine Task.Ends.mono leads ?_ ?_
  · rintro a now' ⟨events, phase', course, ends⟩
    exact ⟨events, phase', course, course, ends⟩
  · rintro (e | h) now' ends
    · obtain ⟨events, phase', course, ends⟩ := ends
      exact ⟨events, phase', course, course, ends⟩
    · exact ends

/-- A turn of the others is a step that leaves the party alone. -/
theorem leads_pause (phase : Phase) (now : Moment (Rpc η) σ) :
    Leads terms Task.pause phase now
      (fun _ events phase' now' => events = [] ∧ phase' = phase ∧ now'.self = now.self ∧
        now'.turns.length < now.turns.length) fun _ _ _ _ => False := by
  refine Task.ends_turn ?_ ?_ ?_
  · exact fun turns => ⟨[], _, .nil _, .nobody turns⟩
  · intro turn rest scene turns passed
    refine ⟨[], _, .single (.pass (Task.pause_ok turns passed)), rfl, rfl, rfl, ?_⟩
    rw [turns]
    exact Nat.lt_succ_self _
  · exact fun turn rest h scene turns halted => ⟨[], _, .nil _, .others turns halted⟩

/-- Rounds without a value use up turns, so they end before the bound. -/
theorem leads_repeatWithin {round : Task (Rpc η) σ (Option α)} (rpc : Rpc η)
    (rounds : ∀ now : Moment (Rpc η) σ, now.self = rpc → Leads terms round phase now
      (fun found events phase' now' =>
        match found with
        | none => events = [] ∧ phase' = phase ∧ now'.self = rpc ∧
            now'.turns.length < now.turns.length
        | some a => done a events phase' now') failed)
    (bound : Nat) (enough : now.turns.length < bound) (start : now.self = rpc) :
    Leads terms (Task.repeatWithin bound round) phase now done failed := by
  induction bound generalizing now with
  | zero => exact absurd enough (Nat.not_lt_zero _)
  | succ bound ih =>
      refine leads_bind ((rounds now start).mono ?_ fun _ _ _ _ ends => ends)
      rintro (_ | a) events phase' mid ends
      · obtain ⟨rfl, rfl, kept, fewer⟩ := ends
        exact ih (by omega) kept
      · exact leads_pure (by simpa using ends)

/-- While nothing but vain polls and turns of the others has happened, the party is as it
was. -/
theorem leads_await {poll : Task (Rpc η) σ (Option α)} (rpc : Rpc η)
    (polls : ∀ now : Moment (Rpc η) σ, now.self = rpc → Leads terms poll phase now
      (fun found events phase' now' =>
        match found with
        | none => events = [] ∧ phase' = phase ∧ now'.self = rpc
        | some a => done a events phase' now') failed)
    (start : now.self = rpc) : Leads terms (Task.await poll) phase now done failed := by
  refine leads_repeatWithin rpc ?_ _ (Nat.lt_succ_self _) start
  intro now start
  refine leads_bind ((polls now start).coursed.mono ?_ fun _ _ _ _ ends => ends.2)
  rintro (_ | a) events phase' mid ⟨course, ends⟩
  · obtain ⟨rfl, rfl, kept⟩ := ends
    have before := course.turns_le
    refine leads_bind ((leads_pause phase' mid).mono ?_ fun _ _ _ _ never => never.elim)
    rintro _ events last now' ⟨rfl, rfl, same, fewer⟩
    exact leads_pure ⟨rfl, rfl, same.trans kept, Nat.lt_of_lt_of_le fewer before⟩
  · exact leads_pure (by simpa using ends)

end Conduit.Rpc

/-
# When a reply is owed

What a party may be asked to do, in any order, with anything happening to the scene in
between and while it waits. Each operation that completes treats the mark of an owed
reply by its own law (`Deed.Lawful`): a call sets it if it failed for a foreign message
and is refused while it is set, serving clears it if it took the very reply that is owed,
and nothing else touches it. So the mark is what the operations so far make of it
(`mark_follows`).
-/

import Conduit.Call.Interface
import Conduit.Proofs.Call.Answers
import Conduit.Proofs.Call.Marker
import Conduit.Proofs.Call.Registering

namespace Conduit

/-- The scene after somebody put a message of one word into a queue. -/
def Scene.injected {σ : Type} (scene : Scene σ) (target : Cap) (word : UInt64) : Scene σ :=
  let letter := Message.letter { words := [word] }
  { scene with machine := (scene.machine.onKernel_ (·.inject target letter)).2 }

namespace Rpc

variable {η σ α β : Type}

/-! ### Operations -/

/-- The calls that clients make on well-known services. -/
inductive ClientCall where
  | introduce
  | sendNumber (number : UInt64)
  | sendString (text : String)
  | getRam (bytes alignment : UInt64)
  | serialPut (c : UInt8)
  | serialGet
  | readLine (limit : Nat)
  | spawnProcess (command : String) (core : UInt64)
  | getProcessName (pid : UInt64)
  | getProcesses
  | ping

namespace ClientCall

/-- The type of the calls that are made. -/
def type : ClientCall → MessageType
  | introduce => initiate
  | sendNumber _ => sendNumberType
  | sendString _ => sendStringType
  | getRam _ _ => requestRam
  | serialPut _ => putChar
  | serialGet => getChar
  | readLine _ => getChar
  | spawnProcess _ _ => spawn
  | getProcessName _ => processName
  | getProcesses => processList
  | ping => roundTrip

/-- Makes the calls, whatever their result. -/
def make : ClientCall → Task (Rpc η) σ Unit
  | introduce => Rpc.introduce
  | sendNumber number => Rpc.sendNumber number
  | sendString text => Rpc.sendString text
  | getRam bytes alignment => do let _ ← Rpc.getRam bytes alignment
  | serialPut c => Rpc.serialPut c
  | serialGet => do let _ ← Rpc.serialGet
  | readLine limit => do let _ ← Rpc.readLine limit
  | spawnProcess command core => do let _ ← Rpc.spawnProcess command core
  | getProcessName pid => do let _ ← Rpc.getProcessName pid
  | getProcesses => do let _ ← Rpc.getProcesses
  | ping => Rpc.ping

end ClientCall

/-- What a party may be asked to do. -/
inductive Operation (η σ : Type) where
  /-- A call. -/
  | call (t : MessageType) (args : List Value)
  /-- Calls on a well-known service. -/
  | client (made : ClientCall)
  /-- Serving one message. -/
  | onMessage
  /-- Serving one message if there is a notification of one. -/
  | dispatchPending
  /-- Registering a binding. -/
  | register (b : Binding)
  /-- Installing the bindings of the well-known calls. -/
  | installStandard
  /-- Providing a handler. -/
  | handle (t : MessageType) (handler : η)
  /-- Choosing the size of pages to come. -/
  | setPageSize (bytes : Nat)
  /-- Any use of the transport, past the party. -/
  | useTransport (use : Task Transport σ Unit)

/-- Registers a binding, or fails. -/
def registerBinding (b : Binding) : Task (Rpc η) σ Unit := do
  match (← Task.self).register b with
  | .ok rpc => Task.setSelf rpc
  | .error e => Task.fail e

/-- Installs the bindings of the well-known calls, or fails. -/
def installBindings : Task (Rpc η) σ Unit := do
  let installed := (← Task.self).installStandard
  Task.setSelf installed.2
  Task.ofExcept installed.1

/-- Does what the party is asked to do, whatever the result. -/
def Operation.perform [Handler η σ] : Operation η σ → Task (Rpc η) σ Unit
  | call t args => notify t args
  | client made => made.make
  | onMessage => do let _ ← Rpc.onMessage
  | dispatchPending => do let _ ← Rpc.dispatchPending
  | register b => registerBinding b
  | installStandard => installBindings
  | handle t handler => Task.modifySelf fun rpc => rpc.handle t handler
  | setPageSize bytes => Task.modifySelf fun rpc => { rpc with pageSize := bytes }
  | useTransport use => onTransport use

/-- The message that the receive step of an operation yields, if it has such a step. -/
def Operation.received? (op : Operation η σ) (now : Moment (Rpc η) σ) : Option Message :=
  match op with
  | .onMessage => Rpc.received? now
  | .dispatchPending =>
      match onTransport Transport.takeEvent now with
      | .ok true now' => Rpc.received? now'
      | _ => none
  | _ => none

/-- An operation that completed: it returned, or it failed. -/
structure Deed (η σ : Type) [Handler η σ] where
  /-- What was done. -/
  op : Operation η σ
  /-- When it was begun. -/
  before : Moment (Rpc η) σ
  /-- Its failure, if it failed. -/
  outcome : Except Error Unit
  /-- When it had ended. -/
  after : Moment (Rpc η) σ
  /-- It completed so. -/
  completed : Task.settle op.perform before = .ok outcome after

/-- What a party did, in order. Between two deeds everything but the party may change. -/
inductive History [Handler η σ] : Rpc η → List (Deed η σ) → Rpc η → Prop
  | start (rpc : Rpc η) : History rpc [] rpc
  | next {rpc : Rpc η} {deeds : List (Deed η σ)} (deed : Deed η σ)
      (history : History rpc deeds deed.before.self) :
      History rpc (deeds ++ [deed]) deed.after.self

/-! ### Laws -/

/-- What a call that completed does to the mark. -/
structure CallLaw (t : MessageType) (before : Moment (Rpc η) σ) (outcome : Except Error Unit)
    (after : Moment (Rpc η) σ) : Prop where
  /-- Afterwards a reply is owed exactly if the call failed in one of two ways. -/
  marks : after.self.isOutstanding = true ↔
    (∃ expected got, outcome = .error (.unexpectedReply expected got)) ∨
      outcome = .error .callInProgress
  /-- What is owed is the reply that did not come: to the call itself, or to the exchange
  that sets up its page if that is where it failed. -/
  names : ∀ expected got, outcome = .error (.unexpectedReply expected got) →
    let stop := Stop.failed (.unexpectedReply expected got)
    ∃ type, after.self.awaiting = some type ∧ type.responseTag = expected ∧
      (type = setupPage ∧ Mark.StopsInSetup t before stop after ∨
        type = t ∧ ¬ Mark.StopsInSetup t before stop after)
  /-- A call is not made exactly if a reply is owed. -/
  refuses : outcome = .error .callInProgress ↔ before.self.isOutstanding = true
  /-- A call that is not made does nothing. -/
  idle : before.self.isOutstanding = true → after = before

/-- What calls on a well-known service do to the mark. -/
structure ClientLaw (t : MessageType) (before : Moment (Rpc η) σ) (outcome : Except Error Unit)
    (after : Moment (Rpc η) σ) : Prop where
  /-- If none was owed, afterwards a reply is owed exactly if a call failed for a foreign
  message. -/
  marks : before.self.isOutstanding = false →
    (after.self.isOutstanding = true ↔
      ∃ expected got, outcome = .error (.unexpectedReply expected got))
  /-- What is owed is the reply that did not come. -/
  names : ∀ expected got, outcome = .error (.unexpectedReply expected got) →
    ∃ type, after.self.awaiting = some type ∧ type.responseTag = expected ∧
      (type = setupPage ∨ type = t)
  /-- While a reply is owed nothing is done. -/
  idle : before.self.isOutstanding = true → after = before

section Laws

variable [Handler η σ]

/-- What each operation does to the mark. -/
def Deed.Lawful (deed : Deed η σ) : Prop :=
  match deed.op with
  | .call t _ => CallLaw t deed.before deed.outcome deed.after
  | .client made => ClientLaw made.type deed.before deed.outcome deed.after
  | .onMessage | .dispatchPending =>
      deed.after.self.awaiting =
        markAfter (deed.op.received? deed.before) deed.before.self.awaiting
  | _ => deed.after.self.awaiting = deed.before.self.awaiting

/-- The first word of the reply that is owed after a call, or calls, that ended so. -/
def owedAfterCall (outcome : Except Error Unit) (owed : Option UInt64) : Option UInt64 :=
  match outcome with
  | .error (.unexpectedReply expected _) => some expected
  | _ => owed

/-- The first word of the reply that is owed after a message was taken. -/
def owedAfterTaking (taken : Option Message) (owed : Option UInt64) : Option UInt64 :=
  match taken with
  | none => owed
  | some message => if owed = some message.tag then none else owed

/-- The first word of the reply that is owed after a deed. -/
def Deed.owed (owed : Option UInt64) (deed : Deed η σ) : Option UInt64 :=
  match deed.op with
  | .call _ _ | .client _ => owedAfterCall deed.outcome owed
  | .onMessage | .dispatchPending => owedAfterTaking (deed.op.received? deed.before) owed
  | _ => owed

end Laws

/-! ### Calls -/

theorem isOutstanding_iff {rpc : Rpc η} : rpc.isOutstanding = true ↔ rpc.awaiting ≠ none := by
  unfold isOutstanding
  rw [Option.isSome_iff_ne_none]

theorem isOutstanding_eq_false {rpc : Rpc η} : rpc.isOutstanding = false ↔ rpc.awaiting = none := by
  unfold isOutstanding
  rw [Option.isSome_eq_false_iff, Option.isNone_iff_eq_none]

/-- While a reply is owed a call fails at once: nothing is sent, received or changed. -/
theorem call_refused {now : Moment (Rpc η) σ} (outstanding : now.self.isOutstanding = true)
    (t : MessageType) (args : List Value) :
    call t args now = .error (.failed .callInProgress) now := by
  unfold call
  rw [Task.self_bind, if_pos outstanding]
  rfl

theorem Mark.BrokeOff.marks {t : MessageType} {e : Error} {rpc : Rpc η}
    (broke : BrokeOff t (.failed e) rpc) :
    rpc.isOutstanding = true ↔ ∃ expected got, e = .unexpectedReply expected got := by
  rw [isOutstanding_iff]
  cases e with
  | unexpectedReply expected got =>
      have owed : rpc.awaiting = some t := broke.2
      simp [owed]
  | _ =>
      have unmarked : rpc.awaiting = none := broke.2
      simp [unmarked]

/-- A call that was made does not fail as one that may not be made. -/
theorem Mark.BrokeOff.made {t : MessageType} {e : Error} {rpc : Rpc η}
    (broke : BrokeOff t (.failed e) rpc) : e ≠ .callInProgress := by
  rintro rfl
  cases broke.1

theorem Mark.CallBrokeOff.brokeOff {t : MessageType} {now now' : Moment (Rpc η) σ} {stop : Stop}
    (broke : CallBrokeOff t now stop now') :
    (StopsInSetup t now stop now' ∧ BrokeOff setupPage stop now'.self) ∨
      (¬ StopsInSetup t now stop now' ∧ BrokeOff t stop now'.self) := by
  by_cases setup : StopsInSetup t now stop now'
  · exact .inl ⟨setup, broke.1 setup⟩
  · exact .inr ⟨setup, broke.2 setup⟩

theorem callLaw {t : MessageType} {args : List Value} {before after : Moment (Rpc η) σ}
    {outcome : Except Error Unit}
    (completed : Task.settle (notify t args) before = .ok outcome after) :
    CallLaw t before outcome after := by
  cases owed : before.self.isOutstanding with
  | true =>
      have refused : notify t args before = .error (.failed .callInProgress) before :=
        Task.bind_error (call_refused owed t args)
      cases (Task.settle_failed refused).symm.trans completed
      exact {
        marks := ⟨fun _ => .inr rfl, fun _ => owed⟩
        names := fun expected got same => by cases same
        refuses := ⟨fun _ => owed, fun _ => rfl⟩
        idle := fun _ => rfl }
  | false =>
      have ends : Task.Ends (notify t args before) (fun _ now' => now'.self.awaiting = none)
          (Mark.CallBrokeOff t before) :=
        Task.ends_bind ((Mark.ends_call (isOutstanding_eq_false.mp owed) t args).mono
          (fun _ _ unmarked => unmarked) fun _ _ broke => broke)
      have idle : before.self.isOutstanding = true → after = before := fun outstanding => by
        cases owed.symm.trans outstanding
      rcases ends.settled completed with ⟨_, rfl, unmarked⟩ | ⟨e, rfl, broke⟩
      · exact {
          marks := by simp [isOutstanding_iff, unmarked]
          names := fun expected got same => by cases same
          refuses := by simp [owed]
          idle := idle }
      · obtain ⟨type, either⟩ : ∃ type, Mark.BrokeOff type (.failed e) after.self := by
          rcases broke.brokeOff with ⟨-, broke⟩ | ⟨-, broke⟩
          · exact ⟨_, broke⟩
          · exact ⟨_, broke⟩
        refine ⟨?_, ?_, ?_, idle⟩
        · simp [either.marks, either.made]
        · rintro expected got same
          cases same
          rcases broke.brokeOff with ⟨setup, tag, mark⟩ | ⟨outside, tag, mark⟩
          · exact ⟨setupPage, mark, tag.symm, .inl ⟨rfl, setup⟩⟩
          · exact ⟨t, mark, tag.symm, .inr ⟨rfl, outside⟩⟩
        · simp [either.made, owed]

theorem CallLaw.clientLaw {t : MessageType} {before after : Moment (Rpc η) σ}
    {outcome : Except Error Unit} (law : CallLaw t before outcome after) :
    ClientLaw t before outcome after where
  marks idle := by
    rw [law.marks, law.refuses, idle]
    simp
  names expected got failed := by
    obtain ⟨type, mark, tag, ⟨setup, -⟩ | ⟨own, -⟩⟩ := law.names expected got failed
    · exact ⟨type, mark, tag, .inl setup⟩
    · exact ⟨type, mark, tag, .inr own⟩
  idle := law.idle

/-! ### Calls on well-known services -/

/-- The task touches the mark as calls of type `t` do, and does nothing while a reply is
owed. -/
structure Calling (t : MessageType) (task : Task (Rpc η) σ α) : Prop where
  free : ∀ now, now.self.awaiting = none →
    Task.Ends (task now) (fun _ now' => now'.self.awaiting = none)
      fun stop now' => ∃ type, (type = setupPage ∨ type = t) ∧ Mark.BrokeOff type stop now'.self
  refused : ∀ now, now.self.isOutstanding = true →
    Task.Ends (task now) (fun _ now' => now' = now)
      fun stop now' => now' = now ∧ ∀ expected got, stop ≠ .failed (.unexpectedReply expected got)

namespace Calling

variable {t : MessageType}

protected theorem pure (a : α) : Calling t (pure a : Task (Rpc η) σ α) where
  free _ unmarked := unmarked
  refused _ _ := rfl

theorem fail {e : Error} (plain : e.owes = false) : Calling t (Task.fail e : Task (Rpc η) σ α) where
  free _ unmarked := ⟨t, .inr rfl, Mark.brokeOff_of_plain plain unmarked⟩
  refused _ _ := ⟨rfl, fun expected got same => by cases same; cases plain⟩

theorem panic_bind (cause : Panic) (next : α → Task (Rpc η) σ β) :
    Calling t (Task.panic cause >>= next) where
  free _ _ := ⟨t, .inr rfl, trivial⟩
  refused _ _ := ⟨rfl, fun expected got same => by cases same⟩

theorem self : Calling t (Task.self : Task (Rpc η) σ (Rpc η)) where
  free _ unmarked := unmarked
  refused _ _ := rfl

theorem ofExcept {result : Except Error α} (plain : Plain result) :
    Calling t (Task.ofExcept result : Task (Rpc η) σ α) := by
  cases result with
  | ok a => exact .pure a
  | error e => exact .fail (plain e rfl)

protected theorem bind {task : Task (Rpc η) σ α} {next : α → Task (Rpc η) σ β}
    (first : Calling t task) (later : ∀ a, Calling t (next a)) : Calling t (task >>= next) where
  free now unmarked := Task.ends_bind ((first.free now unmarked).mono
    (fun a now' unmarked => (later a).free now' unmarked) fun _ _ broke => broke)
  refused now outstanding := by
    apply Task.ends_bind
    refine (first.refused now outstanding).mono ?_ fun _ _ refused => refused
    rintro a _ rfl
    exact (later a).refused _ outstanding

theorem call (t : MessageType) (args : List Value) :
    Calling t (Rpc.call t args : Task (Rpc η) σ (List Value)) where
  free now unmarked := by
    refine (Mark.ends_call unmarked t args).mono (fun _ _ unmarked => unmarked) ?_
    rintro stop now' broke
    rcases broke.brokeOff with ⟨-, broke⟩ | ⟨-, broke⟩
    · exact ⟨_, .inl rfl, broke⟩
    · exact ⟨_, .inr rfl, broke⟩
  refused now outstanding := by
    rw [call_refused outstanding]
    exact ⟨rfl, fun expected got same => by cases same⟩

theorem notify (t : MessageType) (args : List Value) :
    Calling t (Rpc.notify t args : Task (Rpc η) σ Unit) :=
  .bind (.call t args) fun _ => .pure ()

theorem introduce : Calling initiate (Rpc.introduce : Task (Rpc η) σ Unit) := by
  refine .bind .self fun rpc => ?_
  cases rpc.transport with
  | slots chan => exact .fail rfl
  | endpoint ep => exact .notify _ _

theorem wordAt (t s : MessageType) (rets : List Value) (index : Nat) :
    Calling t (Task.ofExcept (Rpc.wordAt s rets index) : Task (Rpc η) σ UInt64) := by
  refine .ofExcept ?_
  unfold Rpc.wordAt
  split
  · exact plain_ok _
  · exact plain_error rfl

theorem strAt (t s : MessageType) (rets : List Value) (index : Nat) :
    Calling t (Task.ofExcept (Rpc.strAt s rets index) : Task (Rpc η) σ String) := by
  refine .ofExcept ?_
  unfold Rpc.strAt
  split
  · exact plain_ok _
  · exact plain_error rfl

theorem capAt (t s : MessageType) (rets : List Value) (index : Nat) :
    Calling t (Task.ofExcept (Rpc.capAt s rets index) : Task (Rpc η) σ Cap) := by
  refine .ofExcept ?_
  unfold Rpc.capAt
  split
  · exact plain_ok _
  · exact plain_error rfl

theorem serialGet : Calling getChar (Rpc.serialGet : Task (Rpc η) σ UInt8) :=
  .bind (.call _ _) fun _ => .bind (.wordAt _ _ _ _) fun _ => .pure _

theorem readLineBytes (limit : Nat) :
    Calling getChar (Rpc.readLineBytes limit : Task (Rpc η) σ (List UInt8)) := by
  induction limit with
  | zero => exact .pure []
  | succ limit ih =>
      refine .bind .serialGet fun c => ?_
      split
      · exact .pure []
      · exact .bind ih fun _ => .pure _

theorem readLine (limit : Nat) : Calling getChar (Rpc.readLine limit : Task (Rpc η) σ String) := by
  unfold Rpc.readLine
  split
  · exact .panic_bind _ _
  · exact .bind (.readLineBytes limit) fun _ => .pure _

theorem getProcesses :
    Calling processList (Rpc.getProcesses : Task (Rpc η) σ (List UInt64)) := by
  refine .bind (.call _ _) fun rets => .bind (.wordAt _ _ _ _) fun count =>
    .bind (.strAt _ _ _ _) fun text => ?_
  split
  · exact .pure _
  · exact .fail rfl

/-- Every service is used by calls of its own type. -/
theorem make (made : ClientCall) : Calling made.type (made.make : Task (Rpc η) σ Unit) := by
  cases made with
  | introduce => exact .introduce
  | sendNumber number => exact .notify _ _
  | sendString text => exact .notify _ _
  | getRam bytes alignment =>
      exact .bind (.bind (.call _ _) fun _ => .bind (.capAt _ _ _ _) fun _ =>
        .bind (.wordAt _ _ _ _) fun _ => .pure _) fun _ => .pure ()
  | serialPut c => exact .notify _ _
  | serialGet => exact .bind .serialGet fun _ => .pure ()
  | readLine limit => exact .bind (.readLine limit) fun _ => .pure ()
  | spawnProcess command core =>
      exact .bind (.bind (.call _ _) fun _ => .wordAt _ _ _ _) fun _ => .pure ()
  | getProcessName pid =>
      exact .bind (.bind (.call _ _) fun _ => .strAt _ _ _ _) fun _ => .pure ()
  | getProcesses => exact .bind .getProcesses fun _ => .pure ()
  | ping => exact .notify _ _

end Calling

theorem Calling.clientLaw {t : MessageType} {task : Task (Rpc η) σ Unit}
    {before after : Moment (Rpc η) σ} {outcome : Except Error Unit} (calling : Calling t task)
    (completed : Task.settle task before = .ok outcome after) :
    ClientLaw t before outcome after := by
  cases owed : before.self.isOutstanding with
  | true =>
      have same : after = before ∧ ∀ expected got,
          outcome ≠ .error (.unexpectedReply expected got) := by
        rcases (calling.refused before owed).settled completed with
          ⟨_, rfl, same⟩ | ⟨e, rfl, same, other⟩
        · exact ⟨same, fun expected got same => by cases same⟩
        · exact ⟨same, fun expected got same => other expected got (by cases same; rfl)⟩
      exact {
        marks := fun idle => by cases owed.symm.trans idle
        names := fun expected got outcome => (same.2 expected got outcome).elim
        idle := fun _ => same.1 }
  | false =>
      have unmarked := isOutstanding_eq_false.mp owed
      rcases (calling.free before unmarked).settled completed with
        ⟨_, rfl, unmarked⟩ | ⟨e, rfl, type, which, broke⟩
      · exact {
          marks := fun _ => by simp [isOutstanding_iff, unmarked]
          names := fun expected got same => by cases same
          idle := fun outstanding => by cases owed.symm.trans outstanding }
      · refine ⟨fun _ => ?_, ?_, fun outstanding => by cases owed.symm.trans outstanding⟩
        · simp [broke.marks]
        · rintro expected got same
          cases same
          obtain ⟨tag, mark⟩ := broke
          exact ⟨type, mark, tag.symm, which⟩

theorem ClientLaw.owed {t : MessageType} {before after : Moment (Rpc η) σ}
    {outcome : Except Error Unit} (law : ClientLaw t before outcome after) :
    after.self.awaiting.map MessageType.responseTag =
      owedAfterCall outcome (before.self.awaiting.map MessageType.responseTag) := by
  by_cases foreign : ∃ expected got, outcome = .error (.unexpectedReply expected got)
  · obtain ⟨expected, got, rfl⟩ := foreign
    obtain ⟨type, mark, tag, -⟩ := law.names expected got rfl
    rw [mark, ← tag]
    rfl
  · have kept : owedAfterCall outcome (before.self.awaiting.map MessageType.responseTag) =
        before.self.awaiting.map MessageType.responseTag := by
      unfold owedAfterCall
      split
      · exact (foreign ⟨_, _, rfl⟩).elim
      · rfl
    rw [kept]
    cases owed : before.self.isOutstanding with
    | true => rw [law.idle owed]
    | false =>
        have idle : after.self.isOutstanding = false :=
          Bool.eq_false_iff.mpr fun outstanding => foreign ((law.marks owed).mp outstanding)
        rw [isOutstanding_eq_false.mp owed, isOutstanding_eq_false.mp idle]

/-! ### Serving -/

theorem map_markAfter (taken : Option Message) (mark : Option MessageType) :
    (markAfter taken mark).map MessageType.responseTag =
      owedAfterTaking taken (mark.map MessageType.responseTag) := by
  unfold markAfter owedAfterTaking
  cases taken with
  | none => rfl
  | some message => exact apply_ite (Option.map MessageType.responseTag) _ none mark

/-- The mark is as in `mark`, whatever came of the task. -/
abbrev EndsMarked {β : Type} (result : EStateM.Result Stop (Moment (Rpc η) σ) β)
    (mark : Option MessageType) : Prop :=
  Task.Ends result (fun _ now => now.self.awaiting = mark) fun _ now => now.self.awaiting = mark

theorem EndsAlike.marked {rpc : Rpc η} {β : Type}
    {result : EStateM.Result Stop (Moment (Rpc η) σ) β} (ends : EndsAlike result rpc) :
    EndsMarked result rpc.awaiting :=
  ends.mono (fun _ _ alike => alike.awaiting) fun _ _ alike => alike.awaiting

section Serving

variable [Handler η σ]

theorem ends_dispatchPending (now : Moment (Rpc η) σ) :
    EndsMarked (dispatchPending now)
      (markAfter ((Operation.dispatchPending : Operation η σ).received? now)
        now.self.awaiting) := by
  have kept := keepsAlike_onTransport Transport.takeEvent now (.refl now.self)
  unfold dispatchPending Operation.received?
  simp only
  cases looked : onTransport Transport.takeEvent now with
  | error stop now' =>
      rw [looked] at kept
      rw [Task.bind_error looked]
      exact kept.awaiting
  | ok event now' =>
      rw [looked] at kept
      rw [Task.bind_ok looked]
      cases event with
      | false => exact kept.awaiting
      | true =>
          rw [← kept.awaiting]
          exact (ends_onMessage now').marked

end Serving

/-! ### Everything else -/

theorem ends_registerBinding (b : Binding) (now : Moment (Rpc η) σ) :
    EndsMarked (registerBinding b now) now.self.awaiting := by
  unfold registerBinding
  rw [Task.self_bind]
  cases registered : now.self.register b with
  | ok rpc => exact awaiting_register registered
  | error e => rfl

theorem ends_installBindings (now : Moment (Rpc η) σ) :
    EndsMarked (installBindings now) now.self.awaiting := by
  unfold installBindings installStandard
  rw [Task.self_bind, Task.setSelf_bind]
  have keeps : Task.KeepsSelf (fun rpc : Rpc η => rpc.awaiting = now.self.awaiting)
      (Task.ofExcept (now.self.registerAll standardBindings).1 : Task (Rpc η) σ Unit) :=
    .ofExcept _
  exact keeps _ (awaiting_registerAll now.self standardBindings)

/-! ### Histories -/

variable [Handler η σ]

/-- Every operation that completed followed its law. -/
theorem deed_lawful (deed : Deed η σ) : deed.Lawful := by
  obtain ⟨op, before, outcome, after, completed⟩ := deed
  have marked : ∀ {mark : Option MessageType}, EndsMarked (op.perform before) mark →
      after.self.awaiting = mark := by
    intro mark ends
    rcases ends.settled completed with ⟨_, -, marked⟩ | ⟨_, -, marked⟩
    · exact marked
    · exact marked
  unfold Deed.Lawful
  cases op with
  | call t args => exact callLaw completed
  | client made => exact (Calling.make made).clientLaw completed
  | onMessage =>
      exact marked (Task.ends_bind ((ends_onMessage before).marked.mono (fun _ _ same => same)
        fun _ _ same => same))
  | dispatchPending =>
      exact marked (Task.ends_bind ((ends_dispatchPending before).mono (fun _ _ same => same)
        fun _ _ same => same))
  | register b => exact marked (ends_registerBinding b before)
  | installStandard => exact marked (ends_installBindings before)
  | handle t handler => exact marked rfl
  | setPageSize bytes => exact marked rfl
  | useTransport use =>
      exact marked ((keepsAlike_onTransport use before (.refl _)).mono
        (fun _ _ alike => alike.awaiting) fun _ _ alike => alike.awaiting)

/-- After a deed the mark is what the deed makes of it. -/
theorem Deed.Lawful.owed {deed : Deed η σ} (lawful : deed.Lawful) :
    deed.after.self.awaiting.map MessageType.responseTag =
      Deed.owed (deed.before.self.awaiting.map MessageType.responseTag) deed := by
  obtain ⟨op, before, outcome, after, completed⟩ := deed
  unfold Deed.Lawful at lawful
  unfold Deed.owed
  cases op with
  | call t args => exact lawful.clientLaw.owed
  | client made => exact lawful.owed
  | onMessage => exact (congrArg _ lawful).trans (map_markAfter _ _)
  | dispatchPending => exact (congrArg _ lawful).trans (map_markAfter _ _)
  | _ => exact congrArg _ lawful

/-- In every history each deed follows the law of its operation. So the reply that is owed
in the end is what the deeds make of it one by one, and while one is owed, whatever call is
made fails at once and leaves everything as it is. -/
theorem mark_follows {rpc rpc' : Rpc η} {deeds : List (Deed η σ)}
    (history : History rpc deeds rpc') :
    (∀ deed ∈ deeds, deed.Lawful) ∧
      rpc'.awaiting.map MessageType.responseTag =
        deeds.foldl Deed.owed (rpc.awaiting.map MessageType.responseTag) ∧
      (rpc'.isOutstanding = true → ∀ (t : MessageType) (args : List Value) (scene : Scene σ)
        (turns : List (Turn σ)), call t args ⟨rpc', scene, turns⟩ =
          .error (.failed .callInProgress) ⟨rpc', scene, turns⟩) := by
  refine ⟨fun deed _ => deed_lawful deed, ?_, fun outstanding t args _ _ =>
    call_refused outstanding t args⟩
  induction history with
  | start => rfl
  | next deed history ih =>
      rw [List.foldl_append, ← ih]
      exact (deed_lawful deed).owed

/-- A call finds a request in place of its reply, so the next call may not be made. Then
the late reply is served, and nothing is owed any more. -/
theorem mark_follows_late_reply : ∃ (deeds : List (Deed Empty (Server Unit)))
    (rpc : Rpc Empty),
    History (Exchange.planned []).client deeds rpc ∧
    deeds.map Deed.outcome =
      [.error (.unexpectedReply 0x800000000000000a 3), .error .callInProgress, .ok ()] ∧
    (∀ deed ∈ deeds, deed.Lawful) ∧
    rpc.awaiting.map MessageType.responseTag = deeds.foldl Deed.owed none ∧
    rpc.isOutstanding = false := by
  let intrude : Turn (Server Unit) := fun scene => .ok () (Scene.injected scene ⟨1⟩ 3)
  have ran : ((Task.failure? (notify ⟨10⟩ [.word 1] ⟨(Exchange.planned []).client,
        (Exchange.planned []).scene, [intrude]⟩)).bind fun first =>
      (Task.failure? (notify ⟨10⟩ [.word 2]
        ⟨first.2.self, first.2.scene, []⟩)).bind fun second =>
      (Task.success? ((Operation.onMessage : Operation Empty (Server Unit)).perform
        ⟨second.2.self, Scene.injected second.2.scene ⟨1⟩ 0x800000000000000a, []⟩)).map fun third =>
        (first.1, second.1, third.2.self.awaiting)) =
      some (.unexpectedReply 0x800000000000000a 3, .callInProgress, none) := by decide +kernel
  obtain ⟨⟨e, now⟩, first, ran⟩ := Option.bind_eq_some_iff.mp ran
  obtain ⟨⟨e', now'⟩, second, ran⟩ := Option.bind_eq_some_iff.mp ran
  obtain ⟨⟨u, now''⟩, third, ran⟩ := Option.map_eq_some_iff.mp ran
  simp only [Prod.mk.injEq] at ran
  obtain ⟨rfl, rfl, unmarked⟩ := ran
  let foreign : Deed Empty (Server Unit) := {
    op := .call ⟨10⟩ [.word 1], before := _, outcome := _, after := now
    completed := Task.settle_failed (Task.failure?_eq_some first) }
  let barred : Deed Empty (Server Unit) := {
    op := .call ⟨10⟩ [.word 2], before := _, outcome := _, after := now'
    completed := Task.settle_failed (Task.failure?_eq_some second) }
  let served : Deed Empty (Server Unit) := {
    op := .onMessage, before := _, outcome := _, after := now''
    completed := Task.settle_ok (Task.success?_eq_some third) }
  have history : History (Exchange.planned []).client [foreign, barred, served] now''.self :=
    .next served (.next barred (.next foreign (.start _)))
  obtain ⟨lawful, owed, -⟩ := mark_follows history
  exact ⟨_, _, history, rfl, lawful, owed, isOutstanding_eq_false.mpr unmarked⟩

end Rpc

end Conduit

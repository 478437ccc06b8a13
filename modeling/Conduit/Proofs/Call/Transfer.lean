/-
# Letters sent and received among others

What a party knows of the scene while it waits is a condition that the others keep.
If it depends on the machine through the queues alone, then only a letter that is
sent or received changes it: a refusal, a planned fault or a new receive slot does
not. `ends_send` and `ends_receive` say how the two operations of an endpoint may
end, however often the kernel refuses and whatever the others do in between.
-/

import Conduit.Proofs.Kernel.Queues
import Conduit.Proofs.Task.Ends
import Conduit.Transport

namespace Conduit

variable {δ σ α : Type}

/-- A letter as a message. -/
def Letter.message (letter : Letter) : Message := ⟨letter.words.toList, letter.cap⟩

/-- The letter that a message is sent as. -/
def Message.letter (message : Message) : Letter := ⟨Letter.fit message.words, message.cap⟩

/-- The first word of a letter. -/
def Letter.tag (letter : Letter) : UInt64 := letter.message.tag

theorem Message.tag_letter (message : Message) : message.letter.tag = message.tag := by
  unfold Letter.tag Letter.message Message.letter Message.tag Letter.fit
  cases message.words with
  | nil => rfl
  | cons w words => rfl

theorem Letter.letter_message (letter : Letter) : letter.message.letter = letter := by
  obtain ⟨words, cap⟩ := letter
  have same : Letter.fit words.toList = words := by
    apply Vector.ext
    intro i hi
    simp only [Letter.fit, Vector.getElem_ofFn]
    rw [List.getD_eq_getElem _ _ (by rw [Vector.length_toList]; exact hi)]
    exact Vector.getElem_toList _
  simp only [Letter.message, Message.letter, same]

/-- A condition that the others keep, and that needs the machine for its queues alone. -/
structure Lasting (rely : Scene σ → Scene σ → Prop) (known : Scene σ → Prop) : Prop where
  kept : ∀ scene scene', known scene → rely scene scene' → known scene'
  queues : ∀ m m' others, known ⟨m, others⟩ → m'.kernel.waiting = m.kernel.waiting →
    known ⟨m', others⟩

namespace Lasting

variable {rely : Scene σ → Scene σ → Prop} {known known' : Scene σ → Prop}

theorem const (p : Prop) : Lasting rely fun _ => p where
  kept _ _ holds _ := holds
  queues _ _ _ holds _ := holds

theorem and (lasting : Lasting rely known) (lasting' : Lasting rely known') :
    Lasting rely fun scene => known scene ∧ known' scene where
  kept _ _ both step := ⟨lasting.kept _ _ both.1 step, lasting'.kept _ _ both.2 step⟩
  queues _ _ _ both same := ⟨lasting.queues _ _ _ both.1 same, lasting'.queues _ _ _ both.2 same⟩

theorem or (lasting : Lasting rely known) (lasting' : Lasting rely known') :
    Lasting rely fun scene => known scene ∨ known' scene where
  kept _ _ either step :=
    either.imp (lasting.kept _ _ · step) (lasting'.kept _ _ · step)
  queues _ _ _ either same :=
    either.imp (lasting.queues _ _ _ · same) (lasting'.queues _ _ _ · same)

end Lasting

/-- The party is as it was, and the condition holds. -/
def Still (d : δ) (known : Scene σ → Prop) : δ → Scene σ → Prop := fun d' scene =>
  d' = d ∧ known scene

/-- What others keep is kept while nothing happens to the party. -/
theorem Lasting.still {rely : Scene σ → Scene σ → Prop} {known : Scene σ → Prop} {d : δ}
    (lasting : Lasting rely known) (d' : δ) (scene scene' : Scene σ)
    (still : Still d known d' scene) (step : rely scene scene') : Still d known d' scene' :=
  ⟨still.1, lasting.kept _ _ still.2 step⟩

/-- The failure is a refusal of the kernel, if it is a failure at all. -/
def Stop.Refused (stop : Stop) : Prop := ∀ e, stop = .failed e → ∃ cause, e = Error.ofChannel cause

theorem Stop.refused_ofChannel (cause : ChannelError) :
    (Stop.failed (Error.ofChannel cause)).Refused := by
  intro e same
  exact ⟨cause, (Stop.failed.inj same).symm⟩

theorem Stop.refused_halted (h : Halt) : (Stop.halted h).Refused := by
  intro e same
  cases same

namespace Task

variable {rely : Scene σ → Scene σ → Prop} {known : Scene σ → Prop} {now : Moment δ σ} {d : δ}

/-- Asking until the answer is final. A refusal for the moment has changed nothing
that matters. -/
theorem ends_awaitAnswer {use : Machine → Except ChannelError α × Machine}
    (after : Except ChannelError α → Scene σ → Prop) (lasting : Lasting rely known)
    (again : ∀ scene, known scene → (use scene.machine).1 = .error .transient →
      known { scene with machine := (use scene.machine).2 })
    (answers : ∀ scene, known scene →
      after (use scene.machine).1 { scene with machine := (use scene.machine).2 })
    (start : Among rely (Still d known) now) :
    Ends (awaitAnswer (asking use) now)
      (fun answer now => Among rely (Still d (after answer)) now)
      fun stop now => stop.Refused ∧ Among rely (Still d known) now := by
  apply ends_await (Still d known)
  · rintro now ⟨⟨same, holds⟩, lawful⟩
    rw [asking_bind]
    have final := answers now.scene holds
    have transient := again now.scene holds
    rcases answered : use now.scene.machine with ⟨answer, m⟩
    rw [answered] at final transient
    cases answer with
    | ok a => exact ⟨⟨same, final⟩, lawful⟩
    | error e =>
        cases e with
        | transient => exact ⟨⟨same, transient rfl⟩, lawful⟩
        | _ => exact ⟨⟨same, final⟩, lawful⟩
  · exact lasting.still
  · exact fun h now among => ⟨Stop.refused_halted h, among⟩
  · exact start

/-- Using the machine, but not its queues. -/
theorem ends_onMachine {use : Machine → Except Panic (α × Machine)} (lasting : Lasting rely known)
    (calm : ∀ m a m', use m = .ok (a, m') → m'.kernel.waiting = m.kernel.waiting)
    (start : Among rely (Still d known) now) :
    Ends (onMachine use now) (fun _ now => Among rely (Still d known) now)
      fun _ now => Among rely (Still d known) now := by
  unfold onMachine
  rw [machine_bind]
  cases used : use now.scene.machine with
  | error cause => exact start
  | ok result =>
      obtain ⟨a, m⟩ := result
      obtain ⟨⟨same, holds⟩, lawful⟩ := start
      exact ⟨⟨same, lasting.queues _ _ _ holds (calm _ _ _ used)⟩, lawful⟩

/-- Asking the kernel for something that leaves the queues alone. -/
theorem ends_request {use : Machine → Except ChannelError α × Machine}
    (lasting : Lasting rely known) (calm : ∀ m, (use m).2.kernel.waiting = m.kernel.waiting)
    (start : Among rely (Still d known) now) :
    Ends (request use now)
      (fun a now => (∃ m, (use m).1 = .ok a) ∧ Among rely (Still d known) now)
      fun stop now => stop.Refused ∧ Among rely (Still d known) now := by
  obtain ⟨⟨same, holds⟩, lawful⟩ := start
  have after := lasting.queues _ _ _ holds (calm now.scene.machine)
  unfold request
  rw [asking_bind]
  rcases answered : use now.scene.machine with ⟨e | a, m⟩
  · rw [answered] at after
    exact ⟨Stop.refused_ofChannel _, ⟨same, after⟩, lawful⟩
  · rw [answered] at after
    exact ⟨⟨_, congrArg Prod.fst answered⟩, ⟨same, after⟩, lawful⟩

/-- Writing to the memory leaves the queues alone. -/
theorem Among.write (lasting : Lasting rely known) (start : Among rely (Still d known) now)
    (memory : Memory) : Among rely (Still d known)
      { now with scene := { now.scene with machine := { now.scene.machine with memory } } } where
  here := ⟨start.here.1, lasting.queues _ _ _ start.here.2 rfl⟩
  lawful := start.lawful

end Task

namespace Transport

variable {rely : Scene σ → Scene σ → Prop} {known : Scene σ → Prop} {now : Moment Transport σ}
  {ep : Endpoint}

/-- A message is sent, perhaps after a while, or not at all. -/
theorem ends_send {peer : Cap} {sent : Scene σ → Prop} (connected : ep.peer = some peer)
    (lasting : Lasting rely known) (message : Message) (flags : SendFlags)
    (posts : ∀ m m' others, known ⟨m, others⟩ → m'.kernel.waiting = Function.update
      m.kernel.waiting peer (m.kernel.waiting peer ++ [message.letter]) → sent ⟨m', others⟩)
    (start : Task.Among rely (Still (.endpoint ep) known) now) :
    Task.Ends (Transport.send message flags now)
      (fun _ now => Task.Among rely (Still (.endpoint ep) sent) now)
      fun _ now => Task.Among rely (Still (.endpoint ep) known) now := by
  unfold Transport.send
  rw [Task.self_bind, start.here.1]
  refine Task.ends_await (Still (.endpoint ep) known) ?_ lasting.still (fun _ _ among => among) start
  · rintro ⟨self, ⟨m, others⟩, turns⟩ ⟨⟨same, holds⟩, lawful⟩
    unfold offer
    rw [Task.self_bind]
    simp only at same holds
    subst same
    simp only [Task.asking_bind]
    rcases answered : ep.send flags ⟨Letter.fit message.words, message.cap⟩ m with ⟨_ | u, m'⟩
    · rename_i e
      have same := Endpoint.send_refused answered
      cases e with
      | transient => exact ⟨⟨rfl, lasting.queues _ _ _ holds same⟩, lawful⟩
      | _ => exact ⟨⟨rfl, lasting.queues _ _ _ holds same⟩, lawful⟩
    · obtain ⟨peer', connected', moved⟩ := Endpoint.send_effect answered
      obtain rfl : peer = peer' := Option.some.inj (connected.symm.trans connected')
      exact ⟨⟨rfl, posts _ _ _ holds moved⟩, lawful⟩

/-- The first letter is taken, or none; if it carries a capability and no slot is left for
the next one, it is lost. -/
theorem ends_receive {taken : Letter → Scene σ → Prop} (lasting : Lasting rely known)
    (lastingTaken : ∀ letter, Lasting rely (taken letter))
    (takes : ∀ m m' others letter rest, known ⟨m, others⟩ →
      m.kernel.waiting ep.home = letter :: rest →
      m'.kernel.waiting = Function.update m.kernel.waiting ep.home rest →
      taken letter ⟨m', others⟩)
    (start : Task.Among rely (Still (.endpoint ep) known) now) :
    Task.Ends (Transport.receive now)
      (fun
        | none, now => Task.Among rely (Still (.endpoint ep) known) now
        | some message, now => ∃ letter : Letter, message = letter.message ∧
            Task.Among rely (Still (.endpoint ep) (taken letter)) now)
      fun stop now => stop.Refused ∧ (Task.Among rely (Still (.endpoint ep) known) now ∨
        ∃ letter, letter.cap.isSome = true ∧
          Task.Among rely (Still (.endpoint ep) (taken letter)) now) := by
  unfold Transport.receive
  rw [Task.self_bind, start.here.1]
  apply Task.ends_bind
  refine (Task.ends_awaitAnswer (fun
    | .ok letter => taken letter
    | .error _ => known) lasting ?_ ?_ start).mono ?_ ?_
  · rintro ⟨m, others⟩ holds refused
    exact lasting.queues _ _ _ holds (Endpoint.recv_refused (Prod.ext refused rfl))
  · rintro ⟨m, others⟩ holds
    rcases answered : ep.recv m with ⟨e | letter, m'⟩
    · exact lasting.queues _ _ _ holds (Endpoint.recv_refused answered)
    · obtain ⟨rest, waits, moved⟩ := Endpoint.recv_effect answered
      exact takes _ _ _ _ _ holds waits moved
  · rintro (e | letter) now' among
    · cases e with
      | noMessage => exact among
      | _ => exact ⟨Stop.refused_ofChannel _, .inl among⟩
    · obtain ⟨⟨same, holds⟩, lawful⟩ := among
      have slotted := lastingTaken letter |>.queues _ _ _ holds
        (Endpoint.waiting_allocRecvSlot ep now'.scene.machine)
      by_cases carries : letter.cap.isSome
      · simp only [carries, if_true, Task.request, bind_assoc]
        rw [Task.asking_bind]
        rcases answered : ep.allocRecvSlot now'.scene.machine with ⟨e | u, m'⟩
        · rw [answered] at slotted
          exact ⟨Stop.refused_ofChannel _, .inr ⟨letter, carries, ⟨same, slotted⟩, lawful⟩⟩
        · rw [answered] at slotted
          exact ⟨letter, rfl, ⟨same, slotted⟩, lawful⟩
      · simp only [carries]
        exact ⟨letter, rfl, ⟨same, holds⟩, lawful⟩
  · exact fun stop now' ends => ⟨ends.1, .inl ends.2⟩

end Transport

end Conduit

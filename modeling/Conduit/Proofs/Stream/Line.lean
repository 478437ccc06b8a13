/-
# A line from a speaker to a listener, whatever fails

A speaker and a listener hold the two ends of a capability channel, and each keeps a log of
its operations: which messages were accepted, what reached the buffer, and how each operation
ended. Nothing is assumed about the plans for the two endpoints, so the kernel may refuse
anything to either of them at any time, and anybody else may do anything that leaves the
listener's queue alone. An operation may fail, and the next one may follow; while one waits,
the other party goes on (`Line.Step`).

`Line.Runs.sound` is the invariant of all runs: what was accepted from the speaker is what
the listener took, followed by what waits, and the listener holds and handed out what the
messages that it took say.
-/

import Conduit.Proofs.Stream.Conservation
import Conduit.Proofs.Stream.Speaking
import Mathlib.Logic.Relation

namespace Conduit

/-- How a task ends, and the moment in which it does. -/
def Task.finish {δ σ α : Type} (task : Task δ σ α) (now : Moment δ σ) :
    Except Stop α × Moment δ σ :=
  match task now with
  | .ok a last => (.ok a, last)
  | .error stop last => (.error stop, last)

theorem Task.finish_ends {δ σ α : Type} {task : Task δ σ α} {now : Moment δ σ}
    (ended : Except Stop α → Moment δ σ → Prop)
    (ends : Task.Ends (task now) (fun a last => ended (.ok a) last)
      fun stop last => ended (.error stop) last) :
    ended (task.finish now).1 (task.finish now).2 := by
  unfold Task.finish
  cases ran : task now with
  | ok a last =>
      rw [ran] at ends
      exact ends
  | error stop last =>
      rw [ran] at ends
      exact ends

/-- What holds of the moment in which a task ends, as a rule. -/
theorem Task.ends_of_finish {δ σ α : Type} {task : Task δ σ α} {now : Moment δ σ}
    (ended : Except Stop α → Moment δ σ → Prop)
    (holds : ended (task.finish now).1 (task.finish now).2) :
    Task.Ends (task now) (fun a last => ended (.ok a) last)
      fun stop last => ended (.error stop) last := by
  unfold Task.finish at holds
  cases ran : task now with
  | ok a last =>
      rw [ran] at holds
      exact holds
  | error stop last =>
      rw [ran] at holds
      exact holds

namespace Stream

/-! ### The two parties -/

/-- A party that sends, and what it did. -/
structure Speaker where
  /-- Its end of the stream. -/
  stream : Stream
  /-- Its operations, the oldest first. -/
  log : List Saying := []

/-- What an operation of a listener was, what reached its buffer, and how it ended: if it
returned, with the number of bytes that it reported. -/
structure Receipt where
  op : Op
  filled : List UInt8
  outcome : Except Stop Nat

/-- A party that receives, and what it did. -/
structure Listener where
  /-- Its end of the stream. -/
  stream : Stream
  /-- Its operations, the oldest first. -/
  receipts : List Receipt := []

variable {σ : Type}

/-- The messages that were accepted from a speaker. -/
def Speaker.said (p : Speaker) : List (List UInt64) := p.log.flatMap Saying.accepted

/-- All bytes that reached a buffer of a listener, whether or not the operation returned. -/
def Listener.touched (q : Listener) : List UInt8 := q.receipts.flatMap Receipt.filled

/-- Performs an operation that sends, and notes what came of it. -/
def Speaker.perform (op : Op) (now : Moment Speaker σ) : Moment Speaker σ :=
  let start : Moment Stream σ := ⟨now.self.stream, now.scene, now.turns⟩
  let (outcome, last) := op.speak.finish start
  ⟨⟨last.self, now.self.log ++ [⟨op, op.accepted start, outcome⟩]⟩, last.scene, last.turns⟩

/-- Performs an operation that receives into a new buffer, and notes what came of it. -/
def Listener.perform (op : Op) (now : Moment Listener σ) : Moment Listener σ :=
  let start : Moment Reader σ := ⟨{ stream := now.self.stream }, now.scene, now.turns⟩
  let (outcome, last) := op.listen.finish start
  ⟨⟨last.self.stream, now.self.receipts ++ [⟨op, last.self.filled, outcome⟩]⟩, last.scene,
    last.turns⟩

/-- The operations of a speaker went as they should. -/
structure Speaker.Fair (a : Endpoint) (p : Speaker) : Prop where
  across : p.stream.transport = .endpoint a
  sound : ∀ saying ∈ p.log, saying.Sound

/-- What the operations of a listener report is what reached their buffers. -/
def Listener.Counts (q : Listener) : Prop :=
  ∀ receipt ∈ q.receipts, ∀ count, receipt.outcome = .ok count → count = receipt.filled.length

/-- A listener heard the first of the messages that were said. -/
structure Listener.Hears (b : Endpoint) (m : Machine) (said : List (List UInt64)) (q : Listener) :
    Prop where
  hears : Stream.Hears b m said q.stream q.touched
  counts : q.Counts

variable {m m' : Machine} {a b : Endpoint} {home : Cap} {rely : Scene σ → Scene σ → Prop}

/-- However an operation of a speaker ends, the messages that were accepted are heard. -/
theorem Speaker.Fair.perform {hears : List (List UInt64) → Scene σ → Prop}
    (heeded : Heeded home rely hears) (peer : a.peer = some home) {op : Op}
    (speaks : op.part = .speaker) (short : op.Short) (now : Moment Speaker σ)
    (fair : now.self.Fair a) (among : Task.Among rely (fun p => hears p.said) now) :
    (Speaker.perform op now).self.Fair a ∧
      Task.Among rely (fun p => hears p.said) (Speaker.perform op now) := by
  obtain ⟨across, heard, sound⟩ := Task.finish_ends
    (Spoken a rely hears now.self.said op ⟨now.self.stream, now.scene, now.turns⟩)
    (ends_speak heeded peer speaks short fair.across ⟨among.here, among.lawful⟩)
  refine ⟨⟨across, fun saying mem => ?_⟩, ?_, heard.lawful⟩
  · rcases List.mem_append.mp mem with old | new
    · exact fair.sound saying old
    · exact List.mem_singleton.mp new ▸ sound
  · have here := heard.here
    unfold Speaker.said at here ⊢
    simp only [Speaker.perform, List.flatMap_append, List.flatMap_singleton]
    exact here

/-- However an operation of a listener ends, it heard some more. -/
theorem Listener.perform_follows {tells : σ → List (List UInt64) → Prop}
    (audible : Audible b tells rely) {op : Op} (listens : op.part = .listener)
    (now : Moment Listener σ)
    (among : Task.Among rely (fun q => Follows b tells q.stream q.touched) now)
    (counts : now.self.Counts) :
    Task.Among rely (fun q => Follows b tells q.stream q.touched) (Listener.perform op now) ∧
      (Listener.perform op now).self.Counts := by
  let start : Moment Reader σ := ⟨{ stream := now.self.stream }, now.scene, now.turns⟩
  have here : Follows b tells now.self.stream (now.self.touched ++ []) now.scene := by
    rw [List.append_nil]
    exact among.here
  have heard := Task.finish_ends
    (fun _ => Task.Among rely fun r : Reader =>
      Follows b tells r.stream (now.self.touched ++ r.filled))
    (keeps_listen (audible.readable now.self.touched) op start ⟨here, among.lawful⟩)
  have counted := Task.finish_ends
    (fun outcome last => ∀ count, outcome = .ok count → count = last.self.filled.length)
    ((returning_listen listens start).mono (fun _ _ same _ returned => Except.ok.inj returned ▸ same)
      fun _ _ _ _ failed => by cases failed)
  refine ⟨⟨?_, heard.lawful⟩, fun receipt mem => ?_⟩
  · have here := heard.here
    unfold Listener.touched at here ⊢
    simp only [Listener.perform, List.flatMap_append, List.flatMap_singleton]
    exact here
  · rcases List.mem_append.mp mem with old | new
    · exact counts receipt old
    · exact List.mem_singleton.mp new ▸ counted

/-! ### What a party does on its own -/

/-- Something happens to the machine, but not to the messages that wait at this endpoint. -/
def Aside (home : Cap) (scene scene' : Scene σ) : Prop :=
  scene'.machine.kernel.waiting home = scene.machine.kernel.waiting home ∧
    scene'.others = scene.others

/-- What a party that takes this part does on its own: it performs an operation, and lets
others do something aside while it waits; or others do. -/
inductive Alone {δ : Type} (home : Cap) (part : Part)
    (perform : Op → Moment δ Unit → Moment δ Unit) : Scene δ → Scene δ → Prop
  | aside {scene scene' : Scene δ} (aside : Aside home scene scene') :
      Alone home part perform scene scene'
  | perform {m : Machine} {d : δ} {op : Op} {turns : List (Turn Unit)} (plays : op.part = part)
      (short : op.Short) (aside : ∀ turn ∈ turns, Turn.Follows (Aside home) turn) :
      Alone home part perform ⟨m, d⟩
        ⟨(perform op ⟨d, ⟨m, ()⟩, turns⟩).scene.machine, (perform op ⟨d, ⟨m, ()⟩, turns⟩).self⟩

theorem Listener.Hears.congr {said : List (List UInt64)} {q : Listener}
    (hears : q.Hears b m said) (same : m'.kernel.waiting b.home = m.kernel.waiting b.home) :
    q.Hears b m' said := ⟨hears.hears.congr same, hears.counts⟩

/-- What a listener does on its own takes nothing back that it heard. -/
theorem hears_alone {said : List (List UInt64)} {scene scene' : Scene Listener}
    (hears : scene.others.Hears b scene.machine said)
    (alone : Alone b.home .listener Listener.perform scene scene') :
    scene'.others.Hears b scene'.machine said := by
  cases alone with
  | aside aside =>
      rw [aside.2]
      exact hears.congr aside.1
  | @perform m q op turns listens _ idle =>
      have audible : Audible b (fun _ : Unit => (· = said)) (Aside b.home) := by
        rintro s got scene scene' ⟨said, told, heard⟩ aside
        exact ⟨said, told, heard.congr aside.1⟩
      obtain ⟨follows, counts⟩ := Listener.perform_follows audible listens ⟨q, ⟨m, ()⟩, turns⟩
        ⟨⟨said, rfl, hears.hears⟩, idle⟩ hears.counts
      obtain ⟨_, rfl, heard⟩ := follows.here
      exact ⟨heard, counts⟩

/-- What a speaker does on its own is fair, and is heard. -/
theorem tells_alone {s : Stream} {got : List UInt8} (peer : a.peer = some b.home)
    {scene scene' : Scene Speaker} (fair : scene.others.Fair a)
    (hears : Stream.Hears b scene.machine scene.others.said s got)
    (alone : Alone b.home .speaker Speaker.perform scene scene') :
    scene'.others.Fair a ∧ Stream.Hears b scene'.machine scene'.others.said s got := by
  cases alone with
  | aside aside =>
      rw [aside.2]
      exact ⟨fair, hears.congr aside.1⟩
  | @perform m p op turns speaks short idle =>
      have heeded : Heeded b.home (Aside b.home) fun said (scene : Scene Unit) =>
          Stream.Hears b scene.machine said s got :=
        { lasting := fun _ =>
            { kept := fun _ _ hears aside => hears.congr aside.1
              queues := fun _ _ _ hears same => hears.congr (congrFun same _) }
          posts := fun _ _ _ _ _ fits hears moved => hears.post fits moved }
      obtain ⟨fair', heard⟩ := Speaker.Fair.perform heeded peer speaks short ⟨p, ⟨m, ()⟩, turns⟩
        fair ⟨hears, idle⟩
      exact ⟨fair', heard.here⟩

/-! ### Runs -/

/-- A speaker and a listener, and the machine they share. -/
structure Line where
  /-- The machine. -/
  machine : Machine
  /-- The party that sends. -/
  speaker : Speaker
  /-- The party that receives. -/
  listener : Listener

namespace Line

/-- One of the parties performs an operation, while whose waits the other one does whatever
it does on its own; or something happens aside. -/
inductive Step (home : Cap) : Line → Line → Prop
  | aside {m m' : Machine} {p : Speaker} {q : Listener}
      (same : m'.kernel.waiting home = m.kernel.waiting home) : Step home ⟨m, p, q⟩ ⟨m', p, q⟩
  | speak {m m' : Machine} {p p' : Speaker} {q q' : Listener} {op : Op}
      {turns turns' : List (Turn Listener)} (speaks : op.part = .speaker) (short : op.Short)
      (lawful : ∀ turn ∈ turns,
        Turn.Follows (Relation.ReflTransGen (Alone home .listener Listener.perform)) turn)
      (ended : Speaker.perform op ⟨p, ⟨m, q⟩, turns⟩ = ⟨p', ⟨m', q'⟩, turns'⟩) :
      Step home ⟨m, p, q⟩ ⟨m', p', q'⟩
  | listen {m m' : Machine} {p p' : Speaker} {q q' : Listener} {op : Op}
      {turns turns' : List (Turn Speaker)} (listens : op.part = .listener)
      (lawful : ∀ turn ∈ turns,
        Turn.Follows (Relation.ReflTransGen (Alone home .speaker Speaker.perform)) turn)
      (ended : Listener.perform op ⟨q, ⟨m, p⟩, turns⟩ = ⟨q', ⟨m', p'⟩, turns'⟩) :
      Step home ⟨m, p, q⟩ ⟨m', p', q'⟩

/-- The two parties act in any order. -/
def Runs (home : Cap) : Line → Line → Prop := Relation.ReflTransGen (Step home)

/-- The two ends of a new capability channel, with rings of any length that a ring may have.
Whatever is planned stays planned. -/
inductive New (home : Cap) : Line → Prop
  | mk {m m' : Machine} {a b : Endpoint} {lengthA lengthB : Nat} {l r : Stream}
      (created : Endpoint.createPair m = (.ok (a, b), m')) (receives : b.home = home)
      (left : Stream.create (.endpoint a) lengthA = .ok (.ok l))
      (right : Stream.create (.endpoint b) lengthB = .ok (.ok r)) :
      New home ⟨m', { stream := l }, { stream := r }⟩

/-- The speaker's operations went as they should, and the listener heard the first of the
messages that were accepted. -/
def Sound (home : Cap) (line : Line) : Prop :=
  ∃ a b, a.peer = some home ∧ b.home = home ∧ line.speaker.Fair a ∧
    line.listener.Hears b line.machine line.speaker.said

variable {line line' : Line}

theorem New.sound (new : New home line) : Sound home line := by
  cases new with
  | mk created receives left right =>
      obtain ⟨peer, -, -, atB, -⟩ := createPair_ok created
      obtain ⟨overA, -⟩ := create_ok left
      obtain ⟨overB, valid, empty, between, isOpen⟩ := create_ok right
      refine ⟨_, _, receives ▸ peer, receives, ⟨overA, fun _ mem => absurd mem List.not_mem_nil⟩,
        ⟨overB, [], ⟨[], rfl, ?_, fun _ mem => absurd mem List.not_mem_nil⟩, valid, ?_, isOpen.symm⟩,
        fun _ mem => absurd mem List.not_mem_nil⟩
      · simp only [Kernel.waiting, atB, Option.getD_some, List.map_nil]
      · rw [empty, between]
        rfl

theorem Step.sound (step : Step home line line') (sound : Sound home line) : Sound home line' := by
  obtain ⟨a, b, peer, rfl, fair, hears⟩ := sound
  refine ⟨a, b, peer, rfl, ?_⟩
  cases step with
  | aside same => exact ⟨fair, hears.congr same⟩
  | @speak m m' p p' q q' op turns turns' speaks short lawful ended =>
      have heeded : Heeded b.home
          (Relation.ReflTransGen (Alone b.home .listener Listener.perform))
          fun said (scene : Scene Listener) => scene.others.Hears b scene.machine said :=
        { lasting := fun _ =>
            { kept := fun _ _ hears alone =>
                alone.recOn hears fun _ step kept => hears_alone kept step
              queues := fun _ _ _ hears same => hears.congr (congrFun same _) }
          posts := fun _ _ _ _ _ fits hears moved =>
            ⟨hears.hears.post fits moved, hears.counts⟩ }
      obtain ⟨fair', heard⟩ := Speaker.Fair.perform heeded peer speaks short ⟨p, ⟨m, q⟩, turns⟩
        fair ⟨hears, lawful⟩
      rw [ended] at fair' heard
      exact ⟨fair', heard.here⟩
  | @listen m m' p p' q q' op turns turns' listens lawful ended =>
      have audible : Audible b (fun (p : Speaker) said => p.Fair a ∧ p.said = said)
          (Relation.ReflTransGen (Alone b.home .speaker Speaker.perform)) := by
        rintro s got scene scene' ⟨_, ⟨fair, rfl⟩, heard⟩ alone
        have told : scene'.others.Fair a ∧
            Stream.Hears b scene'.machine scene'.others.said s got := by
          induction alone with
          | refl => exact ⟨fair, heard⟩
          | tail _ step ih => exact tells_alone peer ih.1 ih.2 step
        exact ⟨_, ⟨told.1, rfl⟩, told.2⟩
      obtain ⟨follows, counts⟩ := Listener.perform_follows audible listens ⟨q, ⟨m, p⟩, turns⟩
        ⟨⟨_, ⟨fair, rfl⟩, hears.hears⟩, lawful⟩ hears.counts
      rw [ended] at follows counts
      obtain ⟨_, ⟨fair', rfl⟩, heard⟩ := follows.here
      exact ⟨fair', heard, counts⟩

/-- However the parties and the others act, and whatever fails. -/
theorem Runs.sound (run : Runs home line line') (sound : Sound home line) : Sound home line' := by
  induction run with
  | refl => exact sound
  | tail _ step ih => exact step.sound ih

/-- The messages that wait for the listener. -/
def waiting (line : Line) : List (List UInt64) :=
  line.listener.stream.transport.waiting line.machine

/-- The bytes of the messages that wait for the listener. -/
def onTheWay (line : Line) : List UInt8 :=
  (decode line.listener.stream.bytesLeft line.waiting).1

/-- The bytes of all messages that were accepted. -/
def told (line : Line) : List UInt8 := (decode 0 line.speaker.said).1

/-- What was accepted was taken or waits. -/
theorem Sound.took (sound : Sound home line) : ∃ taken,
    line.speaker.said = taken ++ line.waiting ∧
      Heard taken line.listener.stream line.listener.touched := by
  obtain ⟨a, b, -, rfl, -, ⟨across, taken, flows, heard⟩, -⟩ := sound
  refine ⟨taken, ?_, heard⟩
  rw [waiting, across]
  exact flows.split

/-- No byte is lost on the line, and none is made up. -/
theorem Sound.conserves (sound : Sound home line) :
    line.listener.touched ++ line.listener.stream.backlog ++ line.onTheWay = line.told := by
  obtain ⟨taken, split, heard⟩ := sound.took
  rw [told, split, decode_append, heard.held]
  rfl

/-! ### Runs without waits -/

/-- The speaker performs an operation that never waits. -/
def speak (op : Op) (line : Line) : Line :=
  let last := Speaker.perform op ⟨line.speaker, ⟨line.machine, line.listener⟩, []⟩
  ⟨last.scene.machine, last.self, last.scene.others⟩

/-- The listener performs an operation that never waits. -/
def listen (op : Op) (line : Line) : Line :=
  let last := Listener.perform op ⟨line.listener, ⟨line.machine, line.speaker⟩, []⟩
  ⟨last.scene.machine, last.scene.others, last.self⟩

theorem Runs.speak {start : Line} (run : Runs home start line) {op : Op}
    (speaks : op.part = .speaker) (short : op.Short) : Runs home start (line.speak op) :=
  run.tail (.speak speaks short (fun _ mem => absurd mem List.not_mem_nil) rfl)

theorem Runs.listen {start : Line} (run : Runs home start line) {op : Op}
    (listens : op.part = .listener) : Runs home start (line.listen op) :=
  run.tail (.listen listens (fun _ mem => absurd mem List.not_mem_nil) rfl)

/-- A new line, on which an operation of one of the two endpoints is refused as planned. -/
def planned (cap : Cap) (op : EndpointOp) (plan : FaultPlan) : Line where
  machine := (Endpoint.createPair ((Machine.create 16).planFaults (.endpoint cap op) plan)).2
  speaker.stream.transport := .endpoint { home := ⟨0⟩, peer := some ⟨1⟩ }
  speaker.stream.ring.storage := Array.replicate 64 0
  listener.stream.transport := .endpoint { home := ⟨1⟩, peer := some ⟨0⟩ }
  listener.stream.ring.storage := Array.replicate 64 0

theorem new_planned (cap : Cap) (op : EndpointOp) (plan : FaultPlan) :
    New ⟨1⟩ (planned cap op plan) := by
  have left : Stream.create (planned cap op plan).speaker.stream.transport 64 =
    .ok (.ok (planned cap op plan).speaker.stream) := rfl
  have right : Stream.create (planned cap op plan).listener.stream.transport 64 =
    .ok (.ok (planned cap op plan).listener.stream) := rfl
  have created : Endpoint.createPair ((Machine.create 16).planFaults (.endpoint cap op) plan) =
    (.ok ({ home := ⟨0⟩, peer := some ⟨1⟩ }, { home := ⟨1⟩, peer := some ⟨0⟩ }),
      (planned cap op plan).machine) := rfl
  exact .mk created rfl left right

end Line

end Stream

end Conduit

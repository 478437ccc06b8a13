/-
# One receive slot for each capability

Over a machine for which no fault is planned, any number of parties are founded over endpoints,
and parties and streams make calls, serve them, send and receive, in any order and whatever comes
of it. While one of them waits the others go on, and a handler may act on other parties. As long
as a slot is left, the kernel has handed out one receive slot for each party founded and one for
each letter with a capability that was taken (`Runs.slots_replenished`).
-/

import Conduit.Proofs.Call.Answers
import Conduit.Proofs.Replenish.Erasure

namespace Conduit

variable {ε : Type} {start scene scene' : Scene (Counted ε)}

/-- What leads from one scene to another, with the letters counted that carry a capability. Who
acts may be in any state. -/
inductive Runs : Scene (Counted ε) → Scene (Counted ε) → Prop
  /-- Nothing happens. -/
  | still (scene : Scene (Counted ε)) : Runs scene scene
  /-- One thing after another. -/
  | next {scene scene' scene'' : Scene (Counted ε)} :
      Runs scene scene' → Runs scene' scene'' → Runs scene scene''
  /-- Something happens that hands out no receive slot. -/
  | aside {scene : Scene (Counted ε)} {m : Machine} (rest : ε) :
      scene.machine.Neutral m → Runs scene ⟨m, { scene.others with rest }⟩
  /-- A party is founded over an endpoint. -/
  | found {η : Type} {scene : Scene (Counted ε)} {ep : Endpoint} {rpc : Rpc η} {m : Machine} :
      Rpc.overEndpoint ep scene.machine = (.ok rpc, m) →
      Runs scene ⟨m, { scene.others with founded := scene.others.founded + 1 }⟩
  /-- No party can be founded over the endpoint. -/
  | refused {η : Type} {scene : Scene (Counted ε)} {ep : Endpoint} {e : Error} {m : Machine} :
      (Rpc.overEndpoint ep scene.machine : Except Error (Rpc η) × Machine) = (.error e, m) →
      Runs scene ⟨m, scene.others⟩
  /-- A party does what it is asked to do. The others go on while it waits, and so may its
  handlers and whoever they act on. -/
  | operate {η : Type} [Handler η (Counted ε)] (command : Rpc.Command η)
      (now : Moment (Rpc η) (Counted ε))
      (lawful : ∀ turn ∈ now.turns, ∀ scene, Runs scene (turn.after scene))
      (answers : ∀ args (asked : Moment η (Counted ε)), asked.turns ⊆ now.turns →
        Runs asked.scene ((Handler.respond args).finish asked).2.scene)
      (awaits : ∀ args (asked : Moment η (Counted ε)), asked.turns ⊆ now.turns →
        ((Handler.respond args).finish asked).2.turns ⊆ asked.turns) :
      Runs now.scene ((command.operation.performBy Endpoint.takeCounted).finish now).2.scene
  /-- A stream does what it is asked to do. -/
  | stream (op : Stream.Op) (now : Moment Reader (Counted ε))
      (lawful : ∀ turn ∈ now.turns, ∀ scene, Runs scene (turn.after scene)) :
      Runs now.scene ((op.runBy Endpoint.takeCounted).finish now).2.scene

/-! ### Founding a party -/

/-- Without a fault, founding a party over an endpoint asks for one receive slot, and fails only
if no slot is left. -/
theorem Rpc.overEndpoint_quiet {η : Type} {m : Machine} (quiet : m.Quiet) (ep : Endpoint) :
    (m.kernel.nextSlot = 0xffffffff ∧
      (overEndpoint ep m : Except Error (Rpc η) × Machine) =
        (.error (Error.ofChannel .noSpace), m)) ∨
    (overEndpoint ep m : Except Error (Rpc η) × Machine) =
      (.ok (create (.endpoint { ep with armed := true })), (ep.allocRecvSlot m).2) := by
  unfold overEndpoint
  rcases Endpoint.allocRecvSlot_quiet quiet ep with ⟨last, refused⟩ | ⟨m', answered, -, faults, -⟩
  · rw [refused]
    exact .inl ⟨last, rfl⟩
  · rw [answered]
    simp only [Endpoint.register, Endpoint.unlessFault_quiet (quiet.congr faults)]
    exact .inr trivial

namespace Settled

variable {η : Type} {ep : Endpoint} {m : Machine}

/-- A party that is founded gets a receive slot. -/
theorem founded {rpc : Rpc η} (settled : Settled 0 start scene)
    (founded : Rpc.overEndpoint ep scene.machine = (.ok rpc, m)) :
    Settled 0 start ⟨m, { scene.others with founded := scene.others.founded + 1 }⟩ := by
  have owed : Settled 1 start
      ⟨scene.machine, { scene.others with founded := scene.others.founded + 1 }⟩ := by
    apply settled.neutral (.refl _)
    simp only [Counted.asked]
    omega
  rcases Rpc.overEndpoint_quiet settled.quiet ep with ⟨-, failed⟩ | made
  · cases founded.symm.trans failed
  · cases founded.symm.trans made
    exact owed.granted ep

/-- A party that could not be founded got none. -/
theorem refused {e : Error} (settled : Settled 0 start scene)
    (refused : (Rpc.overEndpoint ep scene.machine : Except Error (Rpc η) × Machine) =
      (.error e, m)) : Settled 0 start ⟨m, scene.others⟩ := by
  rcases Rpc.overEndpoint_quiet settled.quiet ep with ⟨last, failed⟩ | made
  · cases refused.symm.trans failed
    exact settled
  · cases refused.symm.trans made

end Settled

/-! ### The result -/

namespace Runs

/-- Whatever happens, the receive slots are settled again, wherever no fault is planned. -/
theorem settled (run : Runs scene scene') (quiet : scene.machine.Quiet) :
    Settled 0 scene scene' := by
  induction run with
  | still scene => exact .refl quiet
  | next _ _ first later =>
      have settled := first quiet
      exact settled.trans (later settled.quiet)
  | aside rest neutral => exact (Settled.refl quiet).neutral neutral rfl
  | found founded => exact (Settled.refl quiet).founded founded
  | refused refused => exact (Settled.refl quiet).refused refused
  | @operate η _ command now lawful answers awaits balanced answered =>
      have begun : InBalance now.turns 0 now.scene now := ⟨.refl quiet, fun _ mem => mem⟩
      have answers (args : List Value) :
          Task.Replenishes now.turns now.scene
          (Handler.respond args : Task η (Counted ε) (List Value)) := by
        intro asked balance
        apply Task.ends_of_finish fun _ last => InBalance now.turns 0 now.scene last
        constructor
        · exact balance.settled.trans (answered args asked balance.among balance.settled.quiet)
        · exact fun _ mem => balance.among (awaits args asked balance.among mem)
      have ended := Task.finish_ends (fun _ last => InBalance now.turns 0 now.scene last)
        (Rpc.replenishes_perform balanced answers command now begun)
      exact ended.settled
  | stream op now lawful balanced =>
      have begun : InBalance now.turns 0 now.scene now := ⟨.refl quiet, fun _ mem => mem⟩
      have ended := Task.finish_ends (fun _ last => InBalance now.turns 0 now.scene last)
        (Stream.replenishes_run balanced op now begun)
      exact ended.settled

/-- From a new machine on, and as long as a slot is left, the receive slots that the kernel handed
out are as many as the parties that were founded over endpoints and the letters with a capability
that were taken, whatever became of them. But for the counts, the parties and the streams do what
they do when nothing is counted. -/
theorem slots_replenished {depth : Nat} {rest : ε}
    (run : Runs ⟨Machine.create depth, ⟨0, 0, rest⟩⟩ scene)
    (left : scene.machine.kernel.nextSlot ≠ 0xffffffff) :
    scene.machine.kernel.recvSlots = scene.others.founded + scene.others.taken ∧
      (∀ {η : Type} [Handler η (Counted ε)] [Handler η ε],
        (∀ args, (Handler.respond args : Task η (Counted ε) (List Value)).Forgets
          (Handler.respond args)) →
        ∀ command : Rpc.Command η,
          (command.operation.performBy Endpoint.takeCounted : Task _ (Counted ε) _).Forgets
            command.operation.perform) ∧
      ∀ op : Stream.Op,
        (op.runBy Endpoint.takeCounted : Task _ (Counted ε) _).Forgets op.run := by
  have quiet : (Machine.create depth).Quiet := fun _ => rfl
  have balance := (run.settled quiet).balance left
  refine ⟨?_, Rpc.forgets_perform, Stream.forgets_run⟩
  have none : (Machine.create depth).kernel.recvSlots = 0 := rfl
  simp only [Counted.asked, none] at balance
  omega

/-- Puts a letter with a capability into a queue. -/
def delivering (target : Cap) (word : UInt64) : Turn (Counted Unit) := fun scene =>
  let letter : Letter := ⟨Letter.fit [word], some ⟨9⟩⟩
  .ok () { scene with machine := (scene.machine.onKernel_ (·.inject target letter)).2 }

/-- A party at one end of a capability channel. -/
def server : Rpc Empty :=
  .create (.endpoint { home := ⟨0⟩, peer := some ⟨1⟩, armed := true })

/-- The party serves one message. -/
def serving : Turn (Counted Unit) := fun scene =>
  let serve : Rpc.Operation Empty (Counted Unit) := Rpc.Command.onMessage.operation
  .ok () ((serve.performBy Endpoint.takeCounted).finish ⟨server, scene, []⟩).2.scene

/-- A new machine with a capability channel. -/
def opened : Scene (Counted Unit) := ⟨(Endpoint.createPair (Machine.create 16)).2, ⟨0, 0, ()⟩⟩

/-- A stream at the other end, once the party is founded. While the stream waits, the party gets a
message of a type that it does not know and a reply that nobody waits for; then there is a message
for the stream. -/
def receiving : Moment Reader (Counted Unit) where
  self.stream.transport := .endpoint { home := ⟨1⟩, peer := some ⟨0⟩ }
  self.stream.ring.storage := Array.replicate 64 0
  scene.machine := (Endpoint.allocRecvSlot { home := ⟨0⟩, peer := some ⟨1⟩ } opened.machine).2
  scene.others := ⟨1, 0, ()⟩
  turns := [delivering ⟨0⟩ 77, serving, delivering ⟨0⟩ (MessageType.responseTag ⟨77⟩), serving,
    delivering ⟨1⟩ 8]

/-- What is left once the stream has received. -/
def received : Scene (Counted Unit) :=
  (((Stream.Op.receive 8).runBy Endpoint.takeCounted).finish receiving).2.scene

theorem of_turns : ∀ turn ∈ receiving.turns, ∀ scene, Runs scene (turn.after scene) := by
  have delivers (target : Cap) (word : UInt64) (scene : Scene (Counted Unit)) :
      Runs scene ((delivering target word).after scene) :=
    .aside () (Machine.neutral_enqueue target _ SendFlags.none)
  have serves (scene : Scene (Counted Unit)) : Runs scene (serving.after scene) :=
    .operate .onMessage ⟨server, scene, []⟩ (fun _ mem => absurd mem List.not_mem_nil)
      (fun _ asked _ => .still asked.scene) fun _ _ _ _ mem => mem
  intro turn mem
  simp only [receiving, List.mem_cons, List.not_mem_nil, or_false] at mem
  rcases mem with rfl | rfl | rfl | rfl | rfl
  · exact delivers ⟨0⟩ 77
  · exact serves
  · exact delivers ⟨0⟩ _
  · exact serves
  · exact delivers ⟨1⟩ 8

theorem to_received : Runs ⟨Machine.create 16, ⟨0, 0, ()⟩⟩ received := by
  have neutral : (Machine.create 16).Neutral opened.machine := ⟨rfl, by decide, rfl⟩
  have founded : Rpc.overEndpoint { home := ⟨0⟩, peer := some ⟨1⟩ } opened.machine =
      (.ok server, receiving.scene.machine) := rfl
  have created : Runs ⟨Machine.create 16, ⟨0, 0, ()⟩⟩ opened := .aside () neutral
  have made : Runs opened receiving.scene := .found founded
  exact created.next (made.next (Runs.stream (.receive 8) receiving of_turns))

/-- Each of the three messages carries a capability, and each is made up for. -/
theorem slots_replenished_received : Runs ⟨Machine.create 16, ⟨0, 0, ()⟩⟩ received ∧
    received.machine.kernel.nextSlot ≠ 0xffffffff ∧
    received.others.founded = 1 ∧ received.others.taken = 3 ∧
    received.machine.kernel.recvSlots = 4 := by
  have left : received.machine.kernel.nextSlot ≠ 0xffffffff := by decide +kernel
  have founded : received.others.founded = 1 := by decide +kernel
  have taken : received.others.taken = 3 := by decide +kernel
  refine ⟨to_received, left, founded, taken, ?_⟩
  rw [(to_received.slots_replenished left).1, founded, taken]

end Runs

end Conduit

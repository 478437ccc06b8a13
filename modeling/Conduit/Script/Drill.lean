/-
# Drills of single parts

Short runs that use one part of the library alone: a ring, a wait for a
condition, and the repetition of a refused request.
-/

import Conduit.Ring
import Conduit.Task

namespace Conduit.Drill

/-! ### Rings -/

/-- A step on a ring. -/
inductive RingStep where
  | write (data : List UInt8)
  | read (limit : Nat)
  | save
  | restore
  | state

/-- What a step on a ring gives, and the ring that it leaves. -/
structure RingAnswer where
  /-- The number of bytes written, if the step writes. -/
  written : Option Nat := none
  /-- The bytes read and the length asked for, if the step reads. -/
  read : Option (List UInt8 × Nat) := none
  /-- The ring after the step. -/
  ring : Ring

/-- Takes one step; gives the answer and the ring that is set aside. -/
def ringStep (ring : Ring) (saved : Option Ring) : RingStep → RingAnswer × Option Ring
  | .write data =>
      let (count, ring) := ring.write data
      ({ written := some count, ring }, saved)
  | .read limit =>
      let (bytes, ring) := ring.read limit
      ({ read := some (bytes, limit), ring }, saved)
  | .save => ({ ring }, some ring)
  | .restore => ({ ring := saved.getD ring }, saved)
  | .state => ({ ring }, saved)

/-- Takes steps in order. -/
def ringSteps (ring : Ring) (saved : Option Ring) : List RingStep → List RingAnswer
  | [] => []
  | step :: rest =>
      let (answer, saved) := ringStep ring saved step
      answer :: ringSteps answer.ring saved rest

/-! ### Waits -/

/-- A turn that only counts itself. -/
def countTurn : Turn Nat := modify fun scene => { scene with others := scene.others + 1 }

/-- A scene without parties, in which turns are counted. -/
def countScene : Scene Nat := ⟨Machine.create Kernel.standardDepth, 0⟩

/-- Waits for a condition that holds from the given evaluation on; gives the
numbers of evaluations and of turns. -/
def spin (readyOn : Nat) : Nat × Nat :=
  let ready : Task Nat Nat Bool := do
    Task.modifySelf (· + 1)
    return readyOn ≤ (← Task.self)
  match Task.awaitTrue ready ⟨0, countScene, List.replicate readyOn countTurn⟩ with
  | .ok _ now => (now.self, now.scene.others)
  | .error _ now => (now.self, now.scene.others)

/-- The answers that a repeated request will get, and the number of those given. -/
structure Oracle where
  /-- The answers to come. -/
  answers : List (Except ChannelError UInt64)
  /-- The number of answers given. -/
  given : Nat := 0

/-- Takes the next answer. -/
def Oracle.ask : Task Oracle Nat (Except ChannelError UInt64) := do
  let oracle ← Task.self
  match oracle.answers with
  | [] => Task.halt .stalled
  | answer :: rest =>
      Task.setSelf { answers := rest, given := oracle.given + 1 }
      return answer

/-- Repeats a request until it is answered for good; gives the answer, if one came,
and the numbers of requests and of turns. -/
def retry (answers : List (Except ChannelError UInt64)) :
    Option (Except ChannelError UInt64) × Nat × Nat :=
  match Task.awaitAnswer Oracle.ask
      ⟨{ answers }, countScene, List.replicate answers.length countTurn⟩ with
  | .ok answer now => (some answer, now.self.given, now.scene.others)
  | .error _ now => (none, now.self.given, now.scene.others)

end Conduit.Drill

/-
# Tasks that wait

A task is run by one party: it works on a state of its own, on the machine that
all parties share, and it waits by letting the others go on. What the others do
while it waits is given beforehand as a list of turns; each wait takes the next
one. A task that waits when no turn is left would wait for ever: it is stalled.

A task ends with a value, or fails with an `Error`, after which its party may go
on, or halts, which ends everything. Whatever was done before a failure stays
done.

* `pause` — lets one turn pass.
* `repeatWithin` — repeats a round until it gives a value, within a bound.
* `await` — polls until there is a value, with one turn between two polls. The
  number of turns bounds the polls, so a stall is never reported early.
-/

import Conduit.Endpoint
import Conduit.Error
import Conduit.Machine

namespace Conduit

/-- Why everything ends. -/
inductive Halt where
  /-- A task waits and nobody is left to act. -/
  | stalled
  /-- The program is at fault. -/
  | panicked (cause : Panic)
  deriving DecidableEq

/-- Why a task ends without a value. -/
inductive Stop where
  /-- The operation failed. -/
  | failed (error : Error)
  /-- Everything ends. -/
  | halted (halt : Halt)
  deriving DecidableEq

/-- The machine, and all parties but the one whose task runs. -/
structure Scene (σ : Type) where
  /-- What all parties share. -/
  machine : Machine
  /-- The other parties. -/
  others : σ

/-- What the others do while a task waits. -/
abbrev Turn (σ : Type) := EStateM Halt (Scene σ) Unit

/-- What a task sees: its own state, the scene, and the turns to come. -/
structure Moment (δ σ : Type) where
  /-- The state of the party whose task runs. -/
  self : δ
  /-- Everything else. -/
  scene : Scene σ
  /-- What the others will do, wait by wait. -/
  turns : List (Turn σ)

/-- An operation of a party with state `δ` among others with state `σ`. -/
abbrev Task (δ σ : Type) := EStateM Stop (Moment δ σ)

namespace Task

variable {δ ε σ α β : Type}

/-- The state of the party. -/
def self : Task δ σ δ := do return (← get).self

/-- Replaces the state of the party. -/
def setSelf (d : δ) : Task δ σ Unit := modify fun now => { now with self := d }

/-- Changes the state of the party. -/
def modifySelf (change : δ → δ) : Task δ σ Unit :=
  modify fun now => { now with self := change now.self }

/-- The machine. -/
def machine : Task δ σ Machine := do return (← get).scene.machine

/-- Replaces the machine. -/
def setMachine (m : Machine) : Task δ σ Unit :=
  modify fun now => { now with scene := { now.scene with machine := m } }

/-- Fails. -/
def fail (e : Error) : Task δ σ α := throw (.failed e)

/-- Ends everything. -/
def halt (h : Halt) : Task δ σ α := throw (.halted h)

/-- Ends everything by a panic. -/
def panic (cause : Panic) : Task δ σ α := halt (.panicked cause)

/-- Goes on with a value, or fails. -/
def ofExcept : Except Error α → Task δ σ α
  | .ok a => pure a
  | .error e => fail e

/-- Goes on with a value, or panics. -/
def orPanic : Except Panic α → Task δ σ α
  | .ok a => pure a
  | .error cause => panic cause

/-- Uses the machine in a way that may panic. -/
def onMachine (use : Machine → Except Panic (α × Machine)) : Task δ σ α := do
  let (a, m) ← orPanic (use (← machine))
  setMachine m
  return a

/-- Asks the kernel for something; gives its answer, a refusal included. -/
def asking (use : Machine → Except ChannelError α × Machine) :
    Task δ σ (Except ChannelError α) := do
  let (answer, m) := use (← machine)
  setMachine m
  return answer

/-- Asks the kernel for something, and fails if it is refused. -/
def request (use : Machine → Except ChannelError α × Machine) : Task δ σ α := do
  match ← asking use with
  | .ok a => return a
  | .error e => fail (Error.ofChannel e)

/-- Lets the others act once. -/
def pause : Task δ σ Unit := fun now =>
  match now.turns with
  | [] => .error (.halted .stalled) now
  | turn :: rest =>
      match turn now.scene with
      | .ok () scene => .ok () { now with scene, turns := rest }
      | .error h scene => .error (.halted h) { now with scene, turns := rest }

/-- Runs a task, and gives its failure as a value. What halts still halts. -/
def settle (task : Task δ σ α) : Task δ σ (Except Error α) := fun now =>
  match task now with
  | .ok a now => .ok (.ok a) now
  | .error (.failed e) now => .ok (.error e) now
  | .error (.halted h) now => .error (.halted h) now

/-- Runs a task of a part of the party's state. -/
def within (part : δ → ε) (setPart : ε → δ → δ) (task : Task ε σ α) : Task δ σ α := fun now =>
  match task ⟨part now.self, now.scene, now.turns⟩ with
  | .ok a now' => .ok a ⟨setPart now'.self now.self, now'.scene, now'.turns⟩
  | .error stop now' => .error stop ⟨setPart now'.self now.self, now'.scene, now'.turns⟩

/-- Repeats a round until it gives a value, at most `bound` times. -/
def repeatWithin (bound : Nat) (round : Task δ σ (Option α)) : Task δ σ α :=
  match bound with
  | 0 => halt .stalled
  | bound + 1 => do
      match ← round with
      | some a => return a
      | none => repeatWithin bound round

/-- Polls until there is a value, and lets one turn pass after each vain poll. -/
def await (poll : Task δ σ (Option α)) : Task δ σ α := do
  let turns := (← get).turns.length
  repeatWithin (turns + 1) do
    match ← poll with
    | some a => return some a
    | none =>
        pause
        return none

/-- Polls until a condition holds. -/
def awaitTrue (ready : Task δ σ Bool) : Task δ σ Unit :=
  await do return if ← ready then some () else none

/-- Tries until the kernel's answer is final, that is, no transient refusal. -/
def awaitAnswer (attempt : Task δ σ (Except ChannelError α)) :
    Task δ σ (Except ChannelError α) :=
  await do
    match ← attempt with
    | .error .transient => return none
    | answer => return some answer

end Task

end Conduit

/-
# The scene of a script

The objects that a script names, the calls that handlers answered and that no
answer reported yet, and the answers to what was done during the waits of the
step that runs. An object whose task runs is not among the others.
-/

import Conduit.Call.Interface
import Conduit.Script.Answer
import Conduit.Script.Step
import Conduit.Stream.Receive

namespace Conduit.Script

/-- A handler of a script. -/
structure Actor where
  /-- The message type that it answers. -/
  type : MessageType
  /-- How it answers. -/
  reaction : Reaction Value
  /-- How many calls it answered. -/
  calls : Nat := 0

/-- An object of a script. -/
inductive Object where
  | view (view : View)
  | bell (bell : BellId)
  | transport (transport : Transport)
  | stream (stream : Stream)
  | rpc (rpc : Rpc Actor)
  | directory (directory : Directory (Rpc Actor))

namespace Object

/-- The transport of an object that has one. -/
def transport? : Object → Option Transport
  | transport t => some t
  | stream s => some s.transport
  | rpc r => some r.transport
  | _ => none

/-- The object with its transport replaced. -/
def setTransport (t : Transport) : Object → Object
  | transport _ => transport t
  | stream s => stream { s with transport := t }
  | rpc r => rpc { r with transport := t }
  | object => object

end Object

/-- Everything but the machine. -/
structure Cast where
  /-- The objects by name. -/
  objects : Table String Object := {}
  /-- The capabilities by name; a name stays when its object is moved. -/
  caps : Table String Cap := {}
  /-- The calls that handlers answered since the last report. -/
  journal : List Invocation := []
  /-- The answers to what was done during the waits of the step that runs. -/
  yielded : List (List Answer) := []

/-! ### Handlers -/

namespace Actor

/-- The sum of the words among values, modulo 2 ^ 64. -/
def sum (args : List Value) : UInt64 := (args.filterMap Value.asWord).foldl (· + ·) 0

/-- The strings among values, joined. -/
def concat (args : List Value) : String := String.join (args.filterMap Value.asStr)

/-- The first value, if it is a word, and zero otherwise. -/
def firstWord (args : List Value) : UInt64 := (args.head?.bind Value.asWord).getD 0

/-- Notes the call down and answers it. -/
def respond (args : List Value) : Task Actor Cast (List Value) := do
  let actor ← Task.self
  modify fun now =>
    let others := now.scene.others
    let journal := others.journal ++ [⟨actor.type, args⟩]
    { now with
      self := { actor with calls := actor.calls + 1 }
      scene := { now.scene with others := { others with journal } } }
  match actor.reaction with
  | .echo => return args
  | .fixed rets => return rets
  | .cycle rets => return (rets[actor.calls % rets.length]?).getD []
  | .fail e => Task.fail e
  | .sum => return [.word (sum args)]
  | .concat => return [.str (concat args)]
  | .ram =>
      let bytes := firstWord args
      match ← Task.onMachine (·.allocFrame bytes.toNat) with
      | .ok cap => return [.cap cap, .word bytes]
      | .error e => Task.fail (Error.ofChannel e)

end Actor

/-- A scripted handler answers as its actor does. -/
instance : Handler Actor Cast := ⟨Actor.respond⟩

/-! ### Steps at work -/

/-- Why a step stops before its end. -/
inductive Break where
  /-- The step is refused. -/
  | refused (refusal : Refusal)
  /-- Everything ends. -/
  | halted (halt : Halt)

/-- A step at work in the scene. -/
abbrev Play := EStateM Break (Scene Cast)

namespace Play

variable {α δ : Type}

/-- Refuses the step. -/
def refuse (r : Refusal) : Play α := throw (.refused r)

/-- Refuses the step because it names something that is not there. -/
def unknown : Play α := refuse .unknown

/-- The machine. -/
def machine : Play Machine := do return (← get).machine

/-- Replaces the machine. -/
def setMachine (m : Machine) : Play Unit := modify fun scene => { scene with machine := m }

/-- Goes on with a value, or panics. -/
def orPanic : Except Panic α → Play α
  | .ok a => pure a
  | .error cause => throw (.halted (.panicked cause))

/-- Goes on with a value, or is refused for a failure. -/
def orFail : Except Error α → Play α
  | .ok a => pure a
  | .error e => refuse (.failed e)

/-- Asks the kernel for something, and is refused as the kernel refuses. -/
def request (use : Machine → Except ChannelError α × Machine) : Play α := do
  let (answer, m) := use (← machine)
  setMachine m
  match answer with
  | .ok a => return a
  | .error e => refuse (.kernel e)

/-- Changes the cast. -/
def modifyCast (change : Cast → Cast) : Play Unit :=
  modify fun scene => { scene with others := change scene.others }

/-- The object of a name. -/
def object (name : String) : Play Object := do
  match (← get).others.objects.get? name with
  | some o => return o
  | none => unknown

/-- Names an object. -/
def place (name : String) (o : Object) : Play Unit :=
  modifyCast fun cast => { cast with objects := cast.objects.insert name o }

/-- Takes the name from an object. -/
def remove (name : String) : Play Unit :=
  modifyCast fun cast => { cast with objects := cast.objects.erase name }

/-- Names a capability. -/
def nameCap (name : String) (cap : Cap) : Play Unit :=
  modifyCast fun cast => { cast with caps := cast.caps.insert name cap }

/-- The capability that a script means. -/
def cap : CapName → Play Cap
  | .slot n => return ⟨n⟩
  | .name name => do
      match (← get).others.caps.get? name with
      | some c => return c
      | none => unknown

/-- The capability that a script means, if it means one. -/
def optionalCap : Option CapName → Play (Option Cap)
  | none => return none
  | some name => return some (← cap name)

/-- The value that a script means. -/
def value : ValueName → Play Value
  | .plain v => return v
  | .cap name => return .cap (← cap name)

/-- The values that a script means. -/
def values (names : List ValueName) : Play (List Value) := names.mapM value

/-- The view of a name. -/
def view (name : String) : Play View := do
  match ← object name with
  | .view v => return v
  | _ => unknown

/-- The bell of a name. -/
def bell (name : String) : Play BellId := do
  match ← object name with
  | .bell b => return b
  | _ => unknown

/-- Runs the task of a named object, which is away while it runs. Gives the state
that the object is left in, and how the task ended. -/
def run (name : String) (self : δ) (toObject : δ → Object) (turns : List (Turn Cast))
    (task : Task δ Cast α) : Play (δ × Except Error α) := do
  remove name
  match task ⟨self, ← get, turns⟩ with
  | .ok a now =>
      set now.scene
      place name (toObject now.self)
      return (now.self, .ok a)
  | .error (.failed e) now =>
      set now.scene
      place name (toObject now.self)
      return (now.self, .error e)
  | .error (.halted h) now =>
      set now.scene
      throw (.halted h)

end Play

end Conduit.Script

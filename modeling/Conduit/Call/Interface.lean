/-
# Well-known calls

The message types that init, the memory server, the process manager and the
serial driver serve, the table of their bindings, and the calls that clients make
on them.
-/

import Conduit.Call.ProcessList
import Conduit.Call.Rpc

namespace Conduit.Rpc

variable {η σ : Type}

/-! ### Message types -/

/-- Delivers one number. -/
def sendNumberType : MessageType := ⟨1⟩

/-- Delivers one string. -/
def sendStringType : MessageType := ⟨2⟩

/-- Asks for memory of a size and an alignment; gives a frame and its size. -/
def requestRam : MessageType := ⟨3⟩

/-- Starts a program on a core; gives the process number. -/
def spawn : MessageType := ⟨5⟩

/-- Writes one character to the serial port. -/
def putChar : MessageType := ⟨6⟩

/-- Reads one character from the serial port. -/
def getChar : MessageType := ⟨7⟩

/-- Does nothing. -/
def roundTrip : MessageType := ⟨10⟩

/-- Gives the name of a process. -/
def processName : MessageType := ⟨11⟩

/-- Gives the number of processes and the list of their numbers. -/
def processList : MessageType := ⟨12⟩

/-- The bindings that clients and servers install. -/
def standardBindings : List Binding :=
  [⟨sendNumberType, [.word], []⟩,
   ⟨sendStringType, [.str], []⟩,
   ⟨requestRam, [.word, .word], [.cap, .word]⟩,
   ⟨spawn, [.str, .word], [.word]⟩,
   ⟨putChar, [.word], []⟩,
   ⟨getChar, [], [.word]⟩,
   ⟨roundTrip, [], []⟩,
   ⟨processName, [.word], [.str]⟩,
   ⟨processList, [], [.word, .str]⟩]

/-- Installs the bindings of the well-known calls. -/
def installStandard (rpc : Rpc η) : Except Error Unit × Rpc η := rpc.registerAll standardBindings

/-! ### Results -/

/-- The result at an index, which must be a word. -/
def wordAt (t : MessageType) (rets : List Value) (index : Nat) : Except Error UInt64 :=
  match (rets[index]?).bind Value.asWord with
  | some w => .ok w
  | none => .error (.argMismatch t)

/-- The result at an index, which must be a string. -/
def strAt (t : MessageType) (rets : List Value) (index : Nat) : Except Error String :=
  match (rets[index]?).bind Value.asStr with
  | some s => .ok s
  | none => .error (.argMismatch t)

/-- The result at an index, which must be a capability. -/
def capAt (t : MessageType) (rets : List Value) (index : Nat) : Except Error Cap :=
  match (rets[index]?).bind Value.asCap with
  | some c => .ok c
  | none => .error (.argMismatch t)

/-! ### Calls of clients -/

/-- Makes a call whose results are of no interest. -/
def notify (t : MessageType) (args : List Value) : Task (Rpc η) σ Unit := do
  let _ ← call t args

/-- Gives this end's endpoint to the peer. Only a capability channel has one. -/
def introduce : Task (Rpc η) σ Unit := do
  match (← Task.self).transport with
  | .slots _ => Task.fail .notImplemented
  | .endpoint ep => notify initiate [.cap ep.home]

/-- Sends one number. -/
def sendNumber (number : UInt64) : Task (Rpc η) σ Unit := notify sendNumberType [.word number]

/-- Sends one string. -/
def sendString (text : String) : Task (Rpc η) σ Unit := notify sendStringType [.str text]

/-- Asks for memory; gives a frame and its size. -/
def getRam (bytes alignment : UInt64) : Task (Rpc η) σ (Cap × UInt64) := do
  let rets ← call requestRam [.word bytes, .word alignment]
  let cap ← Task.ofExcept (capAt requestRam rets 0)
  let size ← Task.ofExcept (wordAt requestRam rets 1)
  return (cap, size)

/-- Writes one character to the serial port. -/
def serialPut (c : UInt8) : Task (Rpc η) σ Unit := notify putChar [.word c.toUInt64]

/-- Reads one character from the serial port: the low byte of the result. -/
def serialGet : Task (Rpc η) σ UInt8 := do
  let rets ← call getChar []
  return (← Task.ofExcept (wordAt getChar rets 0)).toUInt8

/-- The character of a carriage return or of a newline ends a line. -/
def endsLine (c : UInt8) : Bool := c = 13 || c = 10

/-- Reads characters up to the end of the line, or as many as asked for. -/
def readLineBytes : (limit : Nat) → Task (Rpc η) σ (List UInt8)
  | 0 => return []
  | limit + 1 => do
      let c ← serialGet
      if endsLine c then return []
      return c :: (← readLineBytes limit)

/-- The length from which on a line cannot be stored. -/
def lineLimit : Nat := 0x8000000000000000

/-- Reads a line of at most `limit` characters; its end is not part of it. -/
def readLine (limit : Nat) : Task (Rpc η) σ String := do
  if limit ≥ lineLimit then Task.panic .tooLarge
  return Utf8.decodeLossy (← readLineBytes limit)

/-- Starts a program on a core; gives the process number. -/
def spawnProcess (command : String) (core : UInt64) : Task (Rpc η) σ UInt64 := do
  let rets ← call spawn [.str command, .word core]
  Task.ofExcept (wordAt spawn rets 0)

/-- The name of a process: the last result. -/
def getProcessName (pid : UInt64) : Task (Rpc η) σ String := do
  let rets ← call processName [.word pid]
  Task.ofExcept (strAt processName rets (rets.length - 1))

/-- The numbers of all processes. -/
def getProcesses : Task (Rpc η) σ (List UInt64) := do
  let rets ← call processList []
  let count ← Task.ofExcept (wordAt processList rets 0)
  let text ← Task.ofExcept (strAt processList rets 1)
  match ProcessList.read text count with
  | some numbers => return numbers
  | none => Task.fail (.argMismatch processList)

/-- Makes a call that does nothing. -/
def ping : Task (Rpc η) σ Unit := notify roundTrip []

end Conduit.Rpc

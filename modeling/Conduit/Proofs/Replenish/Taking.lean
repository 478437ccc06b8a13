/-
# Operations by how they take letters

Everything that receives over an endpoint takes letters in one place. Here the operations of
parties and of streams are written once more with that place left open: `take` is what they do to
take a letter. If they ask the endpoint for it and do nothing else (`Endpoint.take`), they are the
operations themselves (`Rpc.Operation.performBy_take`, `Stream.Op.runBy_take`). A way to take
letters that also counts them shows how many an operation takes.
-/

import Conduit.Proofs.Call.LineInput
import Conduit.Proofs.Call.Outstanding
import Conduit.Proofs.Stream.Bounded

namespace Conduit

variable {η σ α : Type}

/-- Asks the endpoint for a letter. -/
def Endpoint.take (ep : Endpoint) : Task Transport σ (Except ChannelError Letter) :=
  Task.asking ep.recv

section By

variable (take : Endpoint → Task Transport σ (Except ChannelError Letter))

/-- Takes the oldest waiting message, if there is one. -/
def Transport.receiveBy : Task Transport σ (Option Message) := do
  match ← Task.self with
  | endpoint ep =>
      match ← Task.awaitAnswer (take ep) with
      | .error .noMessage => return none
      | .error e => Task.fail (Error.ofChannel e)
      | .ok letter =>
          if letter.cap.isSome then Task.request ep.allocRecvSlot
          return some ⟨letter.words.toList, letter.cap⟩
  | slots chan =>
      let (words, chan, m) ← Task.orPanic (chan.receive chan.payloadWords (← Task.machine))
      Task.setMachine m
      Task.setSelf (slots chan)
      return words.map fun words => { words }

/-! ### Parties -/

namespace Rpc

/-- Looks once for the reply that is owed. -/
def pollReplyBy : Task (Rpc η) σ (Option Message) := do
  if ← onTransport Transport.canReceive then
    match ← Task.settle (onTransport (Transport.receiveBy take)) with
    | .ok message => return message
    | .error e =>
        Task.modifySelf fun rpc => { rpc with awaiting := none }
        Task.fail e
  else return none

/-- Sends a request and waits for its reply. -/
def transactBy (t : MessageType) (request : Message) : Task (Rpc η) σ Message := do
  transmit request
  Task.modifySelf fun rpc => { rpc with awaiting := some t }
  let reply ← Task.await (pollReplyBy take)
  if reply.tag ≠ t.responseTag then Task.fail (.unexpectedReply t.responseTag reply.tag)
  Task.modifySelf fun rpc => { rpc with awaiting := none }
  return reply

/-- Allocates a page for a message type and has the peer map it. -/
def preparePageBy (t : MessageType) : Task (Rpc η) σ Unit := do
  let size := (← Task.self).pageSize
  let frame ← match ← Task.onMachine (·.callAllocFrame size) with
    | .ok frame => pure frame
    | .error e => Task.fail (Error.ofChannel e)
  let page ← Task.request (·.callMapFrame frame)
  let args := [.word t.code, .word (UInt64.ofNat size), .cap frame]
  let m ← Task.machine
  let (message, memory) ← Task.orPanic
    (Paged.encode setupPage setupPage.code args none m.memory)
  Task.setMachine { m with memory }
  let request ← Task.ofExcept message
  let _ ← transactBy take setupPage request
  Task.modifySelf fun rpc =>
    { rpc with entries := rpc.entries.modify t ({ · with nearPage := some page }) }

/-- Makes a call and waits for its results. -/
def callBy (t : MessageType) (args : List Value) : Task (Rpc η) σ (List Value) := do
  let rpc ← Task.self
  if rpc.isOutstanding then Task.fail .callInProgress
  match rpc.binding? t with
  | none => Task.fail (.unknownBinding t)
  | some binding =>
      Task.ofExcept (Value.check t binding.args args)
      if !rpc.transport.isEndpoint && binding.usesCaps then Task.fail .notImplemented
      if rpc.transport.isEndpoint && binding.usesStrings && (rpc.page? t .near).isNone then
        preparePageBy take t
      let request ← encode t t.code args .near
      let reply ← transactBy take t request
      decode t binding.rets reply .near

/-- Makes the calls on a well-known service. -/
def ClientCall.makeBy : ClientCall → Task (Rpc η) σ Unit
  | introduce => do
      match (← Task.self).transport with
      | .slots _ => Task.fail .notImplemented
      | .endpoint ep => let _ ← callBy take initiate [.cap ep.home]
  | sendNumber number => do let _ ← callBy take sendNumberType [.word number]
  | sendString text => do let _ ← callBy take sendStringType [.str text]
  | getRam bytes alignment => do
      let rets ← callBy take requestRam [.word bytes, .word alignment]
      let _ ← Task.ofExcept (capAt requestRam rets 0)
      let _ ← Task.ofExcept (wordAt requestRam rets 1)
  | serialPut c => do let _ ← callBy take putChar [.word c.toUInt64]
  | serialGet => do let _ ← wordFrom (callBy take getChar [])
  | readLine limit => do let _ ← lineFrom (callBy take getChar []) limit
  | spawnProcess command core => do
      let rets ← callBy take spawn [.str command, .word core]
      let _ ← Task.ofExcept (wordAt spawn rets 0)
  | getProcessName pid => do
      let rets ← callBy take processName [.word pid]
      let _ ← Task.ofExcept (strAt processName rets (rets.length - 1))
  | getProcesses => do
      let rets ← callBy take processList []
      let count ← Task.ofExcept (wordAt processList rets 0)
      let text ← Task.ofExcept (strAt processList rets 1)
      match ProcessList.read text count with
      | some _ => return ()
      | none => Task.fail (.argMismatch processList)
  | ping => do let _ ← callBy take roundTrip []

section Serving

variable [Handler η σ]

/-- Takes one message and serves it. -/
def serveOneBy : Task (Rpc η) σ Dispatch := do
  match ← onTransport (Transport.receiveBy take) with
  | none => return .idle
  | some message =>
      let rpc ← Task.self
      if MessageType.isResponse message.tag then
        if rpc.awaiting.map MessageType.responseTag = some message.tag then
          Task.setSelf { rpc with awaiting := none }
        return .strayResponse message.tag
      else
        match rpc.binding? ⟨message.tag⟩ with
        | none => Task.fail (.unknownBinding ⟨message.tag⟩)
        | some binding => serveRequest binding message ⟨message.tag⟩

/-- Serves one message, and asks to be notified of the next one. -/
def onMessageBy : Task (Rpc η) σ Dispatch := do
  let outcome ← Task.settle (serveOneBy take)
  let _ ← Task.settle (onTransport Transport.rearm)
  Task.ofExcept outcome

/-- Serves one message if there is a notification of one. -/
def dispatchPendingBy : Task (Rpc η) σ Dispatch := do
  if ← onTransport Transport.takeEvent then onMessageBy take else return .idle

/-- Does what the party is asked to do, whatever the result. -/
def Operation.performBy : Operation η σ → Task (Rpc η) σ Unit
  | call t args => do let _ ← callBy take t args
  | client made => made.makeBy take
  | onMessage => do let _ ← onMessageBy take
  | dispatchPending => do let _ ← dispatchPendingBy take
  | register b => registerBinding b
  | installStandard => installBindings
  | handle t handler => Task.modifySelf fun rpc => rpc.handle t handler
  | setPageSize bytes => Task.modifySelf fun rpc => { rpc with pageSize := bytes }
  | useTransport use => onTransport use

end Serving

end Rpc

/-! ### Streams -/

namespace Stream

/-- Takes one message from the transport, if one is waiting. -/
def pullBy : Task Stream σ (Option Fragment) := do
  if !(← onTransport Transport.canReceive) then return none
  match ← onTransport (Transport.receiveBy take) with
  | none => return none
  | some message =>
      let (fragment, s) := (← Task.self).absorb message.words
      Task.setSelf s
      return some fragment

end Stream

namespace Reader

/-- One round of filling. -/
def fillRoundBy (upTo : Nat) : Task Reader σ (Option Unit) := do
  Task.modifySelf (·.drain upTo)
  let r ← Task.self
  if r.filled.length = upTo ∨ r.stream.closed then return some ()
  match ← onStream (Stream.pullBy take) with
  | none => return some ()
  | some _ => return none

/-- Fills the buffer up to a length, or as far as messages are waiting. -/
def fillBy (upTo : Nat) : Task Reader σ Unit := do
  let now ← get
  let backlog := now.self.stream.transport.backlogLimit now.scene.machine
  Task.repeatWithin ((now.turns.length + 1) * (backlog + 2)) (fillRoundBy take upTo)

/-- Takes what there is, and gives the number of bytes in the buffer. -/
def receiveAvailableBy (length : Nat) : Task Reader σ Nat := do
  fillBy take length
  return (← Task.self).filled.length

/-- Waits for at least one byte, or for the end of the stream. -/
def receiveBy (length : Nat) : Task Reader σ Nat :=
  Task.await do
    fillBy take length
    let r ← Task.self
    if 0 < r.filled.length ∨ length = 0 ∨ r.stream.closed then return some r.filled.length
    else return none

/-- Waits until the buffer is filled up to a length. -/
def receiveAllBy (upTo : Nat) : Task Reader σ Unit :=
  Task.await do
    fillBy take upTo
    let r ← Task.self
    if r.filled.length = upTo then return some ()
    if r.stream.closed ∧ r.stream.buffered = 0 then Task.fail .closed
    return none

/-- Waits for the first message of a byte string, and gives the length. -/
def awaitStartBy : Task Reader σ UInt64 :=
  Task.await do
    if (← Task.self).stream.closed then Task.fail .closed
    match ← onStream (Stream.pullBy take) with
    | none => return none
    | some (.start length) => return some length
    | some _ => Task.fail .closed

/-- Waits for one whole logical message and gives its length. -/
def receiveMessageBy (length : Nat) : Task Reader σ Nat := do
  let r ← Task.self
  if r.stream.bytesLeft ≠ 0 ∨ r.stream.buffered ≠ 0 then Task.fail .invalidSize
  let total ← awaitStartBy take
  if total.toNat > length then Task.fail .overflow
  receiveAllBy take total.toNat
  return total.toNat

end Reader

/-- Does what a stream is asked to do. -/
def Stream.Op.runBy : Stream.Op → Task Reader σ Nat
  | send data => do
      Reader.onStream (Stream.send data)
      return 0
  | close => do
      Reader.onStream Stream.close
      return 0
  | receiveAvailable length => Reader.receiveAvailableBy take length
  | receive length => Reader.receiveBy take length
  | receiveAll length => do
      Reader.receiveAllBy take length
      return length
  | receiveMessage length => Reader.receiveMessageBy take length

end By

/-! ### Nothing but taking -/

theorem Stream.Op.runBy_take (op : Stream.Op) :
    (op.runBy Endpoint.take : Task Reader σ Nat) = op.run := by
  cases op <;> rfl

namespace Rpc

theorem makeBy_take (made : ClientCall) :
    (made.makeBy Endpoint.take : Task (Rpc η) σ Unit) = made.make := by
  have calls : (callBy Endpoint.take : MessageType → List Value → Task (Rpc η) σ (List Value)) =
      call := rfl
  unfold ClientCall.makeBy ClientCall.make
  rw [calls]
  cases made with
  | introduce => rfl
  | sendNumber | sendString | serialPut | ping => rfl
  | readLine limit => simp only [readLine_eq]
  | getRam | serialGet | spawnProcess | getProcessName =>
      simp only [Rpc.getRam, Rpc.serialGet, Rpc.spawnProcess, Rpc.getProcessName, wordFrom,
        bind_assoc, pure_bind]
  | getProcesses =>
      simp only [Rpc.getProcesses, bind_assoc]
      refine bind_congr fun rets => bind_congr fun count => bind_congr fun text => ?_
      cases ProcessList.read text count with
      | some numbers => rfl
      | none => rfl

theorem Operation.performBy_take [Handler η σ] (op : Operation η σ) :
    op.performBy Endpoint.take = op.perform := by
  cases op with
  | client made => exact makeBy_take made
  | _ => rfl

end Rpc

end Conduit

/-
# Calls

An `Rpc` makes and serves calls over one transport. A call sends a request and
waits for its reply; at most one reply is owed at a time. A party that serves
calls takes one message, finds the binding of its type, reads the arguments, has
the handler of the type answer, and sends the reply.

Over a capability channel strings travel through a buffer page for each message
type, which the caller sets up by a call of its own before the first call that
needs it. Over shared memory strings travel in the message and capabilities
cannot travel.

Two message types are served by the `Rpc` itself: `setupPage` and `initiate`.
-/

import Conduit.Call.Binding
import Conduit.Call.Inline
import Conduit.Call.Paged

namespace Conduit

/-- The state of a handler of calls, which answers in the scene it is in. -/
class Handler (η : Type) (σ : Type) where
  /-- Answers one call. -/
  respond : List Value → Task η σ (List Value)

/-- Which end set up a page. -/
inductive Side where
  /-- This end, for the calls it makes. -/
  | near
  /-- The peer, for the calls it makes. -/
  | far
  deriving DecidableEq

/-- What is known of a message type. -/
structure Entry where
  /-- The shape of its calls. -/
  binding : Binding
  /-- The page for the calls of this end. -/
  nearPage : Option View := none
  /-- The page for the calls of the peer. -/
  farPage : Option View := none
  deriving DecidableEq

/-- The page that one of the ends set up. -/
def Entry.page (entry : Entry) : Side → Option View
  | .near => entry.nearPage
  | .far => entry.farPage

/-- What became of one incoming message. -/
inductive Dispatch where
  /-- A handler answered, and its reply was sent. -/
  | handled (type : MessageType)
  /-- The message was served without a handler. -/
  | builtin (type : MessageType)
  /-- A reply came that no call waits for; it was dropped. -/
  | strayResponse (tag : UInt64)
  /-- No message was waiting. -/
  | idle
  deriving DecidableEq

/-- A party that makes and serves calls over one transport. -/
structure Rpc (η : Type) where
  /-- What carries the messages. -/
  transport : Transport
  /-- What is known of each message type. -/
  entries : Table MessageType Entry := {}
  /-- The handlers by message type. -/
  handlers : Table MessageType η := {}
  /-- The size in bytes of new buffer pages. -/
  pageSize : Nat
  /-- The type of the call whose reply is owed. -/
  awaiting : Option MessageType := none

namespace Rpc

variable {η σ α : Type}

/-- The size in bytes of a buffer page unless something else is asked for. -/
def standardPageSize : Nat := 16384

/-- The type of the call that tells the peer which endpoint to answer. -/
def initiate : MessageType := ⟨0⟩

/-- The type of the call that sets up a buffer page. -/
def setupPage : MessageType := ⟨4⟩

/-- The shape of the call that sets up a page: a message type, a size, a frame. -/
def setupPageBinding : Binding := ⟨setupPage, [.word, .word, .cap], []⟩

/-- The shape of the call that gives an endpoint to the peer. -/
def initiateBinding : Binding := ⟨initiate, [.cap], []⟩

/-- The binding of a message type. -/
def binding? (rpc : Rpc η) (t : MessageType) : Option Binding :=
  (rpc.entries.get? t).map Entry.binding

/-- The page that one end set up for a message type. -/
def page? (rpc : Rpc η) (t : MessageType) (side : Side) : Option View :=
  (rpc.entries.get? t).bind fun entry => entry.page side

/-- Tells whether a reply is owed. -/
def isOutstanding (rpc : Rpc η) : Bool := rpc.awaiting.isSome

/-- Registers a binding in place of any earlier one of its type. A binding that is
not simple is refused. -/
def register (rpc : Rpc η) (b : Binding) : Except Error (Rpc η) :=
  if b.isSimple then .ok { rpc with entries := rpc.entries.insert b.type { binding := b } }
  else .error .notImplemented

/-- Registers bindings up to the first that is refused. -/
def registerAll (rpc : Rpc η) : List Binding → Except Error Unit × Rpc η
  | [] => (.ok (), rpc)
  | b :: rest =>
      match rpc.register b with
      | .error e => (.error e, rpc)
      | .ok rpc => rpc.registerAll rest

/-- Has a handler answer the calls of a message type. -/
def handle (rpc : Rpc η) (t : MessageType) (handler : η) : Rpc η :=
  { rpc with handlers := rpc.handlers.insert t handler }

/-- A party over a transport, with the bindings that it serves itself. -/
def create (transport : Transport) : Rpc η :=
  (({ transport, pageSize := standardPageSize } : Rpc η).registerAll
    [setupPageBinding, initiateBinding]).2

/-- A party over an endpoint. The endpoint gets a slot for the first capability to
come and is armed. -/
def overEndpoint (ep : Endpoint) (m : Machine) : Except Error (Rpc η) × Machine :=
  match ep.allocRecvSlot m with
  | (.error e, m) => (.error (Error.ofChannel e), m)
  | (.ok (), m) =>
      match ep.register m with
      | (.error e, m) => (.error (Error.ofChannel e), m)
      | (.ok ep, m) => (.ok (create (.endpoint ep)), m)

/-- Runs a task of the transport. -/
def onTransport : Task Transport σ α → Task (Rpc η) σ α :=
  Task.within Rpc.transport fun transport rpc => { rpc with transport }

/-! ### Messages -/

/-- The message with a tag and values, the strings in the page of one end. -/
def encode (t : MessageType) (tag : UInt64) (values : List Value) (side : Side) :
    Task (Rpc η) σ Message := do
  let rpc ← Task.self
  match rpc.transport with
  | .endpoint _ =>
      let m ← Task.machine
      let (message, memory) ← Task.orPanic (Paged.encode t tag values (rpc.page? t side) m.memory)
      Task.setMachine { m with memory }
      Task.ofExcept message
  | .slots chan => Task.ofExcept (Inline.encode tag values chan.payloadWords)

/-- The values of the given kinds in a message, the strings from the page of one end. -/
def decode (t : MessageType) (kinds : List Kind) (message : Message) (side : Side) :
    Task (Rpc η) σ (List Value) := do
  let rpc ← Task.self
  match rpc.transport with
  | .endpoint _ =>
      let memory := (← Task.machine).memory
      let values ← Task.orPanic (Paged.decode t kinds message (rpc.page? t side) memory)
      Task.ofExcept values
  | .slots _ => Task.ofExcept (Inline.decode t kinds message)

/-- Sends a message. -/
def transmit (message : Message) : Task (Rpc η) σ Unit :=
  onTransport (Transport.send message SendFlags.standard)

/-! ### Making calls -/

/-- Looks once for the reply that is owed. If receiving fails, the reply can no
longer be had and is not owed any more. -/
def pollReply : Task (Rpc η) σ (Option Message) := do
  if ← onTransport Transport.canReceive then
    match ← Task.settle (onTransport Transport.receive) with
    | .ok message => return message
    | .error e =>
        Task.modifySelf fun rpc => { rpc with awaiting := none }
        Task.fail e
  else return none

/-- Sends a request and waits for its reply. Any other message fails the call, and
the reply is still owed. -/
def transact (t : MessageType) (request : Message) : Task (Rpc η) σ Message := do
  transmit request
  Task.modifySelf fun rpc => { rpc with awaiting := some t }
  let reply ← Task.await pollReply
  if reply.tag ≠ t.responseTag then Task.fail (.unexpectedReply t.responseTag reply.tag)
  Task.modifySelf fun rpc => { rpc with awaiting := none }
  return reply

/-- Allocates a page for a message type and has the peer map it. -/
def preparePage (t : MessageType) : Task (Rpc η) σ Unit := do
  let size := (← Task.self).pageSize
  let frame ← match ← Task.onMachine (·.callAllocFrame size) with
    | .ok frame => pure frame
    | .error e => Task.fail (Error.ofChannel e)
  let page ← Task.request (·.callMapFrame frame)
  let args := [.word t.code, .word (UInt64.ofNat size), .cap frame]
  let m ← Task.machine
  let (message, memory) ← Task.orPanic
    (Paged.encode setupPage setupPage.code args none m.memory)
  Task.setMachine { m with memory }
  let request ← Task.ofExcept message
  let _ ← transact setupPage request
  Task.modifySelf fun rpc =>
    { rpc with entries := rpc.entries.modify t ({ · with nearPage := some page }) }

/-- Makes a call and waits for its results. -/
def call (t : MessageType) (args : List Value) : Task (Rpc η) σ (List Value) := do
  let rpc ← Task.self
  if rpc.isOutstanding then Task.fail .callInProgress
  match rpc.binding? t with
  | none => Task.fail (.unknownBinding t)
  | some binding =>
      Task.ofExcept (Value.check t binding.args args)
      if !rpc.transport.isEndpoint && binding.usesCaps then Task.fail .notImplemented
      if rpc.transport.isEndpoint && binding.usesStrings && (rpc.page? t .near).isNone then
        preparePage t
      let request ← encode t t.code args .near
      let reply ← transact t request
      decode t binding.rets reply .near

/-! ### Serving calls -/

/-- Maps the page that the peer set up for the calls of a message type. -/
def installPage (args : List Value) : Task (Rpc η) σ Unit := do
  match args with
  | type :: size :: frame :: _ =>
      match type.asWord, size.asWord, frame.asCap with
      | some type, some size, some frame =>
          if !(← Task.self).transport.isEndpoint then Task.fail .notImplemented
          let page ← Task.request (·.callMapFrame frame)
          if size.toNat > page.bytes then Task.fail .invalidSize
          let rpc ← Task.self
          match rpc.entries.get? ⟨type⟩ with
          | none => Task.fail (.unknownBinding ⟨type⟩)
          | some entry =>
              let entry := { entry with farPage := some page }
              Task.setSelf { rpc with entries := rpc.entries.insert ⟨type⟩ entry }
      | _, _, _ => Task.fail (.argMismatch setupPage)
  | _ => Task.panic .outOfRange

/-- Takes the endpoint that the peer gave as the one to answer. -/
def adoptPeer (args : List Value) : Task (Rpc η) σ Unit := do
  match args with
  | [] => Task.panic .outOfRange
  | arg :: _ =>
      match arg.asCap with
      | none => Task.fail (.argMismatch initiate)
      | some peer =>
          let rpc ← Task.self
          match rpc.transport with
          | .slots _ => Task.fail .notImplemented
          | .endpoint ep =>
              Task.setSelf { rpc with transport := .endpoint { ep with peer := some peer } }

/-- Has the handler of a message type answer. The handler keeps its new state. -/
def answer [Handler η σ] (t : MessageType) (args : List Value) : Task (Rpc η) σ (List Value) := do
  match (← Task.self).handlers.get? t with
  | none => Task.fail (.noHandler t)
  | some handler =>
      Task.within (fun _ => handler) (fun handler rpc => rpc.handle t handler)
        (Handler.respond args)

/-- Serves a request whose binding is known. -/
def serveRequest [Handler η σ] (binding : Binding) (request : Message) (t : MessageType) :
    Task (Rpc η) σ Dispatch := do
  let args ← decode t binding.args request .far
  let (rets, outcome) ←
    if t = setupPage then
      installPage args
      pure ([], Dispatch.builtin t)
    else if t = initiate then
      adoptPeer args
      pure ([], Dispatch.builtin t)
    else
      let rets ← answer t args
      pure (rets, Dispatch.handled t)
  Task.ofExcept (Value.check t binding.rets rets)
  let reply ← encode t t.responseTag rets .far
  transmit reply
  return outcome

/-- Takes one message and serves it. A reply is never served: the one that is owed
is owed no more, any other is dropped. -/
def serveOne [Handler η σ] : Task (Rpc η) σ Dispatch := do
  match ← onTransport Transport.receive with
  | none => return .idle
  | some message =>
      let rpc ← Task.self
      if MessageType.isResponse message.tag then
        if rpc.awaiting.map MessageType.responseTag = some message.tag then
          Task.setSelf { rpc with awaiting := none }
        return .strayResponse message.tag
      else
        match rpc.binding? ⟨message.tag⟩ with
        | none => Task.fail (.unknownBinding ⟨message.tag⟩)
        | some binding => serveRequest binding message ⟨message.tag⟩

/-- Serves one message, and asks to be notified of the next one whatever came of
it. -/
def onMessage [Handler η σ] : Task (Rpc η) σ Dispatch := do
  let outcome ← Task.settle serveOne
  let _ ← Task.settle (onTransport Transport.rearm)
  Task.ofExcept outcome

/-- Serves one message if there is a notification of one. -/
def dispatchPending [Handler η σ] : Task (Rpc η) σ Dispatch := do
  if ← onTransport Transport.takeEvent then onMessage else return .idle

/-! ### Description -/

/-- The numbers of the bound message types, in ascending order. -/
def boundTypes (rpc : Rpc η) : List Nat :=
  (rpc.entries.keys.map fun t => t.code.toNat).mergeSort

/-- A party is described by its transport, the types it knows, the number of its
handlers and the call whose reply is owed. -/
def describe (rpc : Rpc η) : String :=
  "Rpc \x7b backend: \"" ++ rpc.transport.label ++ "\", bindings: ["
    ++ ", ".intercalate (rpc.boundTypes.map toString) ++ "], handlers: "
    ++ toString rpc.handlers.size ++ ", awaiting: "
    ++ (match rpc.awaiting with
      | none => "None"
      | some t => "Some(MsgType(" ++ toString t ++ "))")
    ++ " \x7d"

end Rpc

end Conduit

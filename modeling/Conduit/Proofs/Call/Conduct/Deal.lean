/-
# Single steps of a party, with what it has in hand

A party is followed more closely than by its messages: each step says what it does to the
machine and to what the party has noted. What a step may be depends on what the party has
in hand (`Phase`), which its state does not tell: a page that the peer was asked to map, or
a message that is being served.

* `Deal` — a step of the party itself, on its state and the machine.
* `Stride` — a step among others: a deal, a turn of theirs, or something a handler does.
* `Blame` — why everything ends: nobody acts any more, or somebody is at fault.
-/

import Conduit.Proofs.Call.Dispatch
import Conduit.Proofs.Call.Traces

namespace Conduit

namespace Transport

/-- This message, and nothing else, was sent. -/
inductive Posts (message : Message) : Transport → Machine → Transport → Machine → Prop
  | endpoint {ep : Endpoint} {flags : SendFlags} {m m' : Machine}
      (sent : ep.send flags message.letter m = (.ok (), m')) :
      Posts message (.endpoint ep) m (.endpoint ep) m'
  | slots {chan chan' : SlotChannel} {m m' : Machine} (capless : message.cap = none)
      (filled : chan.send message.words m = .ok (.ok true, chan', m')) :
      Posts message (.slots chan) m (.slots chan') m'

/-- This message, and nothing else, was taken. -/
inductive Draws : Message → Transport → Machine → Transport → Machine → Prop
  | endpoint {ep : Endpoint} {letter : Letter} {m m' : Machine}
      (received : ep.recv m = (.ok letter, m')) :
      Draws letter.message (.endpoint ep) m (.endpoint ep) m'
  | slots {chan chan' : SlotChannel} {words : List UInt64} {m m' : Machine}
      (emptied : chan.receive chan.payloadWords m = .ok (some words, chan', m')) :
      Draws { words } (.slots chan) m (.slots chan') m'

/-- A notification was consumed, or the next one was asked for. -/
inductive Notices : Transport → Machine → Transport → Machine → Prop
  | event (ep : Endpoint) (m : Machine) : Notices (.endpoint ep) m (.endpoint (ep.takeEvent m).2) m
  | armed {ep ep' : Endpoint} {m m' : Machine} (granted : ep.register m = (.ok ep', m')) :
      Notices (.endpoint ep) m (.endpoint ep') m'
  | unarmed {ep : Endpoint} {e : ChannelError} {m m' : Machine}
      (refused : ep.register m = (.error e, m')) : Notices (.endpoint ep) m (.endpoint ep) m'
  | bell {chan : SlotChannel} {rung : Bool} {m m' : Machine}
      (taken : chan.takeNotification m = .ok (rung, m')) : Notices (.slots chan) m (.slots chan) m'

end Transport

namespace Rpc

/-- What a party has in hand. -/
inductive Phase where
  /-- Nothing that pages depend on. -/
  | free
  /-- A new frame and its page, for the calls of a message type. -/
  | prepared (t : MessageType) (frame : Cap) (page : View)
  /-- The peer was asked to map the page. -/
  | asking (t : MessageType) (page : View)
  /-- The peer says that it has mapped the page. -/
  | granted (t : MessageType) (page : View)
  /-- A message that was taken to be served. -/
  | serving (message : Message)
  /-- A page of the peer that was recorded, which the peer is not told yet. -/
  | mapped (t : MessageType) (page : View)
  /-- Nothing, since receiving was refused. -/
  | spoiled

/-- A party at work: what it has in hand, its state, and the machine. -/
structure Seat (η : Type) where
  /-- What it has in hand. -/
  phase : Phase
  /-- Its state. -/
  rpc : Rpc η
  /-- The machine. -/
  machine : Machine

/-- What a party may do besides serving: the calls it may make, what its handlers may do to
the scene, and whether it looks after its notifications. -/
structure Terms (σ : Type) where
  /-- The calls, by type and arguments. -/
  calls : MessageType → List Value → Prop
  /-- What a handler may do at once. -/
  asides : Scene σ → Scene σ → Prop
  /-- Notifications may be consumed and asked for. -/
  notices : Prop

variable {η σ α β : Type}

/-- Why a message is sent, and what is in hand then. -/
inductive Reason (calls : MessageType → List Value → Prop) (rpc : Rpc η) :
    Phase → Message → Phase → Prop
  /-- The peer is asked to map a page. -/
  | ask {t : MessageType} {size : Nat} {frame : Cap} {page : View}
      (unmarked : rpc.awaiting = none) (missing : rpc.page? t .near = none) :
      Reason calls rpc (.prepared t frame page) (setupRequest t size frame) (.asking t page)
  /-- A call is made. -/
  | request {t : MessageType} {args : List Value} {message : Message}
      (unmarked : rpc.awaiting = none) (made : calls t args) (tagged : message.tag = t.code)
      (carried : ∀ c, message.cap = some c → Value.cap c ∈ args) :
      Reason calls rpc .free message .free
  /-- A request was served. -/
  | reply {request message : Message} (asked : MessageType.isResponse request.tag = false)
      (other : request.tag ≠ setupPage.code)
      (tagged : message.tag = MessageType.responseTag ⟨request.tag⟩) :
      Reason calls rpc (.serving request) message .free
  /-- The page of the peer is recorded. -/
  | confirm {t : MessageType} {page : View} {message : Message}
      (tagged : message.tag = setupPage.responseTag) :
      Reason calls rpc (.mapped t page) message .free

/-- What is in hand once a message was taken. -/
inductive Picks : Phase → Message → Phase → Prop
  /-- It is looked at as a reply. -/
  | reply (message : Message) : Picks .free message .free
  /-- It says that the page is mapped. -/
  | granted {t : MessageType} {page : View} {message : Message}
      (tagged : message.tag = setupPage.responseTag) :
      Picks (.asking t page) message (.granted t page)
  /-- It says nothing of the page. -/
  | foreign {t : MessageType} {page : View} {message : Message}
      (other : message.tag ≠ setupPage.responseTag) :
      Picks (.asking t page) message (.asking t page)
  /-- It is to be served. -/
  | serve (message : Message) : Picks .free message (.serving message)

/-- Why no reply is owed any more. -/
inductive Clears (calls : MessageType → List Value → Prop) (rpc : Rpc η) : Phase → Prop
  /-- The page is mapped. -/
  | granted (t : MessageType) (page : View) : Clears calls rpc (.granted t page)
  /-- The reply can no longer be had. -/
  | spoiled : Clears calls rpc .spoiled
  /-- It came. -/
  | returned {t : MessageType} {args : List Value} (owed : rpc.awaiting = some t)
      (made : calls t args) : Clears calls rpc .free
  /-- It came late. -/
  | late {message : Message} (owed : rpc.awaiting.map MessageType.responseTag = some message.tag) :
      Clears calls rpc (.serving message)

/-- The request asks to map this frame for the calls of this type. -/
structure Asks (request : Message) (t : MessageType) (frame : Cap) : Prop where
  tagged : request.tag = setupPage.code
  named : request.words[1]? = some t.code
  carried : request.cap = some frame

/-- A step of the party itself. -/
inductive Deal (calls : MessageType → List Value → Prop) (notices : Prop) :
    Seat η → List Event → Seat η → Prop
  /-- A message is sent. -/
  | send {s : Seat η} {message : Message} {phase : Phase} {transport : Transport} {m : Machine}
      (posts : Transport.Posts message s.rpc.transport s.machine transport m)
      (reason : Reason calls s.rpc s.phase message phase) :
      Deal calls notices s [.sent message] ⟨phase, { s.rpc with transport }, m⟩
  /-- Sending is refused. -/
  | unsent {s : Seat η} {ep : Endpoint} {flags : SendFlags} {letter : Letter} {e : ChannelError}
      {m : Machine} (across : s.rpc.transport = .endpoint ep)
      (refused : ep.send flags letter s.machine = (.error e, m)) :
      Deal calls notices s [] { s with machine := m }
  /-- A message is taken. -/
  | take {s : Seat η} {message : Message} {phase : Phase} {transport : Transport} {m : Machine}
      (draws : Transport.Draws message s.rpc.transport s.machine transport m)
      (picks : Picks s.phase message phase) :
      Deal calls notices s [.received message] ⟨phase, { s.rpc with transport }, m⟩
  /-- There is nothing to take. -/
  | vain {s : Seat η} {ep : Endpoint} {e : ChannelError} {m : Machine}
      (across : s.rpc.transport = .endpoint ep) (refused : ep.recv s.machine = (.error e, m))
      (soft : e = .transient ∨ e = .noMessage) :
      Deal calls notices s [] { s with machine := m }
  /-- Receiving is refused. -/
  | barred {s : Seat η} {ep : Endpoint} {e : ChannelError} {m : Machine}
      (across : s.rpc.transport = .endpoint ep) (refused : ep.recv s.machine = (.error e, m))
      (hard : e ≠ .transient ∧ e ≠ .noMessage) :
      Deal calls notices s [] { s with phase := .spoiled, machine := m }
  /-- A slot for the next capability is had. -/
  | slot {s : Seat η} {ep : Endpoint} {m : Machine} (across : s.rpc.transport = .endpoint ep)
      (granted : ep.allocRecvSlot s.machine = (.ok (), m)) :
      Deal calls notices s [] { s with machine := m }
  /-- No slot for the next capability can be had. -/
  | slotless {s : Seat η} {ep : Endpoint} {e : ChannelError} {m : Machine}
      (across : s.rpc.transport = .endpoint ep)
      (refused : ep.allocRecvSlot s.machine = (.error e, m)) :
      Deal calls notices s [] { s with phase := .spoiled, machine := m }
  /-- A message is written, its strings into a page. -/
  | write {s : Seat η} {t : MessageType} {tag : UInt64} {values : List Value} {side : Side}
      {answer : Except Error Message} {memory : Memory} (across : s.rpc.transport.isEndpoint = true)
      (written : Paged.encode t tag values (s.rpc.page? t side) s.machine.memory =
        .ok (answer, memory)) :
      Deal calls notices s [] { s with machine := { s.machine with memory } }
  /-- A frame is asked for. -/
  | allocate {s : Seat η} {bytes : Nat} {answer : Except ChannelError Cap} {m : Machine}
      (across : s.rpc.transport.isEndpoint = true)
      (answered : s.machine.callAllocFrame bytes = .ok (answer, m)) :
      Deal calls notices s [] { s with machine := m }
  /-- A frame is looked up. -/
  | map {s : Seat η} (across : s.rpc.transport.isEndpoint = true) (frame : Cap) :
      Deal calls notices s [] { s with machine := (s.machine.callMapFrame frame).2 }
  /-- A frame is had, and its page is in hand. -/
  | prepare {s : Seat η} (t : MessageType) {bytes : Nat} {frame : Cap} {page : View} {m : Machine}
      (across : s.rpc.transport.isEndpoint = true) (idle : s.phase = .free)
      (answered : s.machine.callAllocFrame bytes = .ok (.ok frame, m))
      (shown : m.kernel.mapFrame frame = .ok page) :
      Deal calls notices s [] { s with phase := .prepared t frame page, machine := m }
  /-- A reply is owed from now on. -/
  | mark {s : Seat η} {t : MessageType} (unmarked : s.rpc.awaiting = none)
      (made : (t = setupPage ∧ ∃ type page, s.phase = .asking type page) ∨ ∃ args, calls t args) :
      Deal calls notices s [] { s with rpc := { s.rpc with awaiting := some t } }
  /-- No reply is owed any more. -/
  | unmark {s : Seat η} (clears : Clears calls s.rpc s.phase) :
      Deal calls notices s [] { s with rpc := { s.rpc with awaiting := none } }
  /-- A page is recorded that the peer has mapped. -/
  | near {s : Seat η} {t : MessageType} {page : View} (granted : s.phase = .granted t page) :
      Deal calls notices s [] { s with
        phase := .free
        rpc := { s.rpc with entries := s.rpc.entries.modify t ({ · with nearPage := some page }) } }
  /-- A page of the peer is recorded. -/
  | far {s : Seat η} {request : Message} {t : MessageType} {frame : Cap} {page : View}
      {entry : Entry} (inHand : s.phase = .serving request) (asks : Asks request t frame)
      (shown : s.machine.kernel.mapFrame frame = .ok page)
      (known : s.rpc.entries.get? t = some entry) :
      Deal calls notices s [] { s with
        phase := .mapped t page
        rpc := { s.rpc with entries := s.rpc.entries.insert t { entry with farPage := some page } } }
  /-- Another peer is answered from now on. -/
  | adopt {s : Seat η} {request : Message} {ep : Endpoint} {peer : Cap}
      (across : s.rpc.transport = .endpoint ep) (inHand : s.phase = .serving request)
      (tagged : request.tag = initiate.code) (carried : request.cap = some peer) :
      Deal calls notices s [] { s with
        rpc := { s.rpc with transport := .endpoint { ep with peer := some peer } } }
  /-- A handler is run. -/
  | answer {s : Seat η} {t : MessageType} (args : List Value)
      (known : (s.rpc.handlers.get? t).isSome = true) :
      Deal calls notices s [.answered t args] s
  /-- The state of a handler is kept, or there is a new one. -/
  | handlers (s : Seat η) (handlers : Table MessageType η) :
      Deal calls notices s [] { s with rpc := { s.rpc with handlers } }
  /-- A binding is registered. -/
  | register {s : Seat η} {b : Binding} {rpc : Rpc η} (registered : s.rpc.register b = .ok rpc) :
      Deal calls notices s [] { s with rpc }
  /-- Pages are of another size from now on. -/
  | pageSize (s : Seat η) (pageSize : Nat) :
      Deal calls notices s [] { s with rpc := { s.rpc with pageSize } }
  /-- What is in hand is put down. If the peer may still map a page, its reply is owed. -/
  | release {s : Seat η}
      (owed : ∀ t page, s.phase = .asking t page → s.rpc.awaiting = some setupPage) :
      Deal calls notices s [] { s with phase := .free }
  /-- A notification is consumed, or the next one is asked for. -/
  | notice {s : Seat η} {transport : Transport} {m : Machine} (may : notices)
      (noticed : Transport.Notices s.rpc.transport s.machine transport m) :
      Deal calls notices s [] { s with rpc := { s.rpc with transport }, machine := m }

/-- What is in hand, and the moment. -/
abbrev Stage (η σ : Type) := Phase × Moment (Rpc η) σ

/-- One step among others. -/
inductive Stride (terms : Terms σ) : Stage η σ → List Event → Stage η σ → Prop
  /-- The others act once. -/
  | pass {phase : Phase} {now now' : Moment (Rpc η) σ} (paused : Task.pause now = .ok () now') :
      Stride terms (phase, now) [] (phase, now')
  /-- The party acts. -/
  | deal {phase phase' : Phase} {now : Moment (Rpc η) σ} {rpc : Rpc η} {m : Machine}
      {events : List Event} (deal : Deal terms.calls terms.notices
        ⟨phase, now.self, now.scene.machine⟩ events ⟨phase', rpc, m⟩) :
      Stride terms (phase, now) events
        (phase', { now with self := rpc, scene := { now.scene with machine := m } })
  /-- One of its handlers acts. -/
  | aside {phase : Phase} {now : Moment (Rpc η) σ} {scene : Scene σ}
      (may : terms.asides now.scene scene) : Stride terms (phase, now) [] (phase, { now with scene })

/-- Any number of steps among others. -/
abbrev Course (terms : Terms σ) : Stage η σ → List Event → Stage η σ → Prop :=
  Traced (Stride terms)

/-- Why everything ends at a moment. -/
inductive Blame [Handler η σ] : Halt → Stage η σ → Prop
  /-- The party waits and no turn is left. -/
  | nobody {phase : Phase} {now : Moment (Rpc η) σ} (none : now.turns = []) :
      Blame .stalled (phase, now)
  /-- The next turn ends everything. -/
  | others {h : Halt} {phase : Phase} {now : Moment (Rpc η) σ} {turn : Turn σ}
      {rest : List (Turn σ)} {scene : Scene σ} (next : now.turns = turn :: rest)
      (halts : turn now.scene = .error h scene) : Blame h (phase, now)
  /-- A handler does. -/
  | handler {h : Halt} {phase : Phase} {now : Moment (Rpc η) σ} {t : MessageType} {handler : η}
      {args : List Value} {inner : Moment η σ} (known : now.self.handlers.get? t = some handler)
      (halts : Handler.respond args ⟨handler, now.scene, now.turns⟩ = .error (.halted h) inner) :
      Blame h (phase, now)
  /-- A message is written into a page that is not there. -/
  | write {cause : Panic} {phase : Phase} {now : Moment (Rpc η) σ} {t : MessageType}
      {tag : UInt64} {values : List Value} {side : Side}
      (across : now.self.transport.isEndpoint = true)
      (fails : Paged.encode t tag values (now.self.page? t side) now.scene.machine.memory =
        .error cause) : Blame (.panicked cause) (phase, now)
  /-- A message is read from a page that is not there. -/
  | read {cause : Panic} {phase : Phase} {now : Moment (Rpc η) σ} {t : MessageType}
      {kinds : List Kind} {message : Message} {side : Side}
      (across : now.self.transport.isEndpoint = true)
      (fails : Paged.decode t kinds message (now.self.page? t side) now.scene.machine.memory =
        .error cause) : Blame (.panicked cause) (phase, now)
  /-- The panes of a channel are not there. -/
  | pane {cause : Panic} {phase : Phase} {now : Moment (Rpc η) σ} {chan : SlotChannel}
      (across : now.self.transport = .slots chan)
      (fails : chan.canReceive now.scene.machine = .error cause ∨
        chan.takeNotification now.scene.machine = .error cause ∨
        (∃ limit, chan.receive limit now.scene.machine = .error cause) ∨
        ∃ payload, chan.send payload now.scene.machine = .error cause) :
      Blame (.panicked cause) (phase, now)
  /-- A page is larger than can be addressed. -/
  | size {cause : Panic} {phase : Phase} {now : Moment (Rpc η) σ}
      (across : now.self.transport.isEndpoint = true)
      (fails : now.scene.machine.callAllocFrame now.self.pageSize = .error cause) :
      Blame (.panicked cause) (phase, now)
  /-- A line is longer than can be stored. -/
  | line (stage : Stage η σ) : Blame (.panicked .tooLarge) stage
  /-- A request that the party serves itself has fewer arguments than it takes. -/
  | short {message : Message} {now : Moment (Rpc η) σ} {binding : Binding} {args : List Value}
      (bound : now.self.binding? ⟨message.tag⟩ = some binding)
      (few : (message.tag = setupPage.code ∧ binding.args.length < 3) ∨
        (message.tag = initiate.code ∧ binding.args = []))
      (read : decode ⟨message.tag⟩ binding.args message .far now = .ok args now) :
      Blame (.panicked .outOfRange) (.serving message, now)

end Rpc

end Conduit

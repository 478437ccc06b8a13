/-
# Performing the steps of a script

What each kind of step does to the scene, what it gives, and the state that its
object is left in.
-/

import Conduit.Script.Scene

namespace Conduit.Script

/-- What a step gave before its end was reported. -/
structure Performance where
  /-- The reply, or why there is none. -/
  result : Except Refusal Reply
  /-- The buffer that the step filled, if it had one. -/
  buffer : Option (List UInt8) := none
  /-- The state that the object is left in. -/
  status : Option Status := none

/-- A reply and nothing else. -/
def Performance.ofReply (reply : Reply) : Performance := { result := .ok reply }

namespace Play

/-! ### The kernel -/

/-- Performs a step on the kernel. -/
def onKernel : KernelAction → Play Reply
  | .endpoint name => do
      let ep ← request Endpoint.create
      place name (.transport (.endpoint ep))
      nameCap name ep.home
      return .slot ep.home
  | .channel a b => do
      let (epA, epB) ← request Endpoint.createPair
      place a (.transport (.endpoint epA))
      nameCap a epA.home
      place b (.transport (.endpoint epB))
      nameCap b epB.home
      return .pair epA.home epB.home
  | .allocSlot => return .slot (← request (·.onKernel Kernel.allocSlot))
  | .allocFrame bytes name => do
      let (answer, m) ← orPanic ((← machine).allocFrame bytes)
      setMachine m
      match answer with
      | .error e => refuse (.kernel e)
      | .ok c =>
          match name with
          | some name => nameCap name c
          | none => pure ()
          return .slot c
  | .mapFrame name viewName => do
      let c ← cap name
      match (← machine).kernel.mapFrame c with
      | .error e => refuse (.kernel e)
      | .ok v =>
          place viewName (.view v)
          return .mapped v.bytes
  | .inject target words name => do
      let target ← cap target
      let c ← optionalCap name
      request (·.onKernel_ (·.inject target ⟨Letter.fit words, c⟩))
      return .done
  | .pending name => return .pending ((← machine).kernel.pending (← cap name))
  | .stats => do
      let k := (← machine).kernel
      return .stats k.syncSends k.recvSlots
  | .planEndpoint name op plan => do
      let c ← cap name
      setMachine ((← machine).planFaults (.endpoint c op) plan)
      return .done
  | .planAllocator op plan => do
      setMachine ((← machine).planFaults (.allocator op) plan)
      return .done

/-! ### Memory and bells -/

/-- Performs a step on a view of memory. -/
def onView (v : View) : ViewAction → Play Reply
  | .window offset length name =>
      match v.window offset length with
      | none => return .absent
      | some w => do
          place name (.view w)
          return .view w
  | .split mid low high =>
      match v.splitAt mid with
      | none => return .absent
      | some (l, h) => do
          place low (.view l)
          place high (.view h)
          return .halves l h
  | .load index => do return .word (← orPanic ((← machine).memory.load v index))
  | .store index word => do
      let m ← machine
      let memory ← orPanic (m.memory.store v index word)
      setMachine { m with memory }
      return .done
  | .write offset data => do
      let m ← machine
      let (fits, memory) ← orPanic (m.memory.writeBytes v offset data)
      setMachine { m with memory }
      return .written fits
  | .read offset length => do
      return .bytes (← orPanic ((← machine).memory.readBytes v offset length)) length
  | .readString offset => do
      match ← orPanic ((← machine).memory.readString v offset) with
      | some bytes => return .string bytes
      | none => return .absent
  | .describe => return .description v.describe

/-- Performs a step on a bell. -/
def onBell (b : BellId) : BellAction → Play Reply
  | .ring => do
      let m ← machine
      let bells := m.bells.ring b
      setMachine { m with bells }
      return .rings (bells.get b).rings
  | .state => return .rings ((← machine).bells.get b).rings
  | .take => do
      let m ← machine
      let (rung, bells) := m.bells.take b
      setMachine { m with bells }
      return .taken rung (bells.get b).rings

/-! ### Endpoints -/

/-- Performs a step on an endpoint; gives the endpoint as it is left. -/
def onEndpoint (ep : Endpoint) : EndpointAction → Play (Reply × Endpoint)
  | .send words name flags => do
      let c ← optionalCap name
      request (ep.send flags ⟨Letter.fit words, c⟩)
      return (.done, ep)
  | .recv => return (.letter (← request ep.recv), ep)
  | .canRecv => return (.canRecv (ep.canRecv (← machine)), ep)
  | .allocRecvSlot => do
      request ep.allocRecvSlot
      return (.done, ep)
  | .register => return (.done, ← request ep.register)
  | .takeEvent => do
      let (given, ep) := ep.takeEvent (← machine)
      return (.event given, ep)
  | .setPeer name => return (.done, { ep with peer := some (← cap name) })
  | .state => return (.home ep.home, ep)

/-- The state that an endpoint is in. -/
def endpointStatus (ep : Endpoint) : Play Status :=
  return .endpoint ep.peer ((← machine).kernel.pending ep.home)

/-! ### Channels over shared memory -/

/-- The reply to the creation of a channel, which gets a name. -/
def placeSlots (name : String) (created : Except Error SlotChannel) : Play Reply := do
  let c ← orFail created
  place name (.transport (.slots c))
  return .shape c.slotBytes c.payloadWords c.slots

/-- Performs a step on a channel over shared memory; gives the channel as it is
left. -/
def onSlots (c : SlotChannel) : SlotAction → Play (Reply × SlotChannel)
  | .send words => do
      let (sent, c, m) ← orPanic (c.send words (← machine))
      setMachine m
      return (.sent (← orFail sent), c)
  | .receive limit => do
      let (words, c, m) ← orPanic (c.receive limit (← machine))
      setMachine m
      return (.words words limit, c)
  | .notifyLocal name => return (.done, ← orFail (c.notifyLocal (← bell name)))
  | .notifyRemote name => return (.done, c.notifyRemote (← bell name))
  | .takeNotification => do
      let (rung, m) ← orPanic (c.takeNotification (← machine))
      setMachine m
      return (.notified rung, c)
  | .state => return (.pinged c.localBell.isSome c.remoteBell.isSome, c)
  | .describe => return (.description c.describe, c)

/-- The state that a channel over shared memory is in. -/
def slotStatus (c : SlotChannel) : Play Status :=
  return .slots (← orPanic (c.canReceive (← machine)))

end Play

/-! ### Streams -/

/-- The length of the buffer that a step on a stream fills. -/
def StreamAction.bufferLength? : StreamAction → Option Nat
  | .receiveAvailable n => some n
  | .receive n => some n
  | .receiveMessage n => some n
  | .receiveAll n => some n
  | _ => none

/-- What a buffer holds before it is filled. -/
def unfilled : UInt8 := 0xEE

/-- The task of a step on a stream. -/
def StreamAction.task : StreamAction → Task Reader Cast Reply
  | .send data => do
      Reader.onStream (Stream.send data)
      return .done
  | .receiveAvailable n => return .got (← Reader.receiveAvailable n)
  | .receive n => return .got (← Reader.receive n)
  | .receiveMessage n => return .got (← Reader.receiveMessage n)
  | .receiveAll n => do
      Reader.receiveAll n
      return .done
  | .close => do
      Reader.onStream Stream.close
      return .done
  | .state => return .nothing
  | .describe => return .description (← Task.self).stream.describe

/-! ### Calls -/

/-- The actor that a script means. -/
def Play.actor (t : MessageType) : Reaction ValueName → Play Actor
  | .echo => return { type := t, reaction := .echo }
  | .fixed rets => return { type := t, reaction := .fixed (← Play.values rets) }
  | .cycle rets => return { type := t, reaction := .cycle (← rets.mapM Play.values) }
  | .fail e => return { type := t, reaction := .fail e }
  | .sum => return { type := t, reaction := .sum }
  | .concat => return { type := t, reaction := .concat }
  | .ram => return { type := t, reaction := .ram }

/-- The task of a step on a party of calls. -/
def Play.rpcTask : RpcAction → Play (Task (Rpc Actor) Cast Reply)
  | .bind b => return do
      Task.setSelf (← Task.ofExcept ((← Task.self).register b))
      return .done
  | .binding t => return do
      match (← Task.self).binding? t with
      | some b => return .binding b
      | none => return .absent
  | .installStandard => return do
      let (result, rpc) := (← Task.self).installStandard
      Task.setSelf rpc
      Task.ofExcept result
      return .done
  | .handler t reaction => do
      let actor ← Play.actor t reaction
      return do
        Task.modifySelf (·.handle t actor)
        return .done
  | .call t args => do
      let args ← Play.values args
      return do return .values (← Rpc.call t args)
  | .onMessage => return do return .dispatch (← Rpc.onMessage)
  | .dispatchPending => return do return .dispatch (← Rpc.dispatchPending)
  | .introduce => return do
      Rpc.introduce
      return .done
  | .sendNumber n => return do
      Rpc.sendNumber n
      return .done
  | .sendString s => return do
      Rpc.sendString s
      return .done
  | .getRam bytes alignment => return do
      let (cap, size) ← Rpc.getRam bytes alignment
      return .ram cap size
  | .serialPut c => return do
      Rpc.serialPut c
      return .done
  | .serialGet => return do return .character (← Rpc.serialGet)
  | .readLine limit => return do return .text (← Rpc.readLine limit)
  | .spawn command core => return do return .process (← Rpc.spawnProcess command core)
  | .processName pid => return do return .processName (← Rpc.getProcessName pid)
  | .processes => return do return .processes (← Rpc.getProcesses)
  | .ping => return do
      Rpc.ping
      return .done
  | .state => return do return .overEndpoint (← Task.self).transport.isEndpoint
  | .describe => return do return .description (← Task.self).describe

namespace Play

/-- The configuration in a text. -/
def config (text : String) : Play Config :=
  match Config.ofText text with
  | .ok c => return c
  | .error e => refuse (.config e)

/-- The transport of a name, which is taken from it. -/
def takeTransport (name : String) : Play Transport := do
  match ← object name with
  | .transport t =>
      remove name
      return t
  | _ => unknown

/-- The party of calls of a name, which is taken from it. -/
def takeRpc (name : String) : Play (Rpc Actor) := do
  match ← object name with
  | .rpc r =>
      remove name
      return r
  | _ => unknown

/-- Creates a stream. Its configuration is read before the transport is taken, so a
wrong one leaves the transport in place. -/
def newStream (name carrier : String) (ring : Nat ⊕ String) : Play Reply := do
  let length ← match ring with
    | .inl n => pure n
    | .inr text => do pure (← config text).ringLength
  let t ← takeTransport carrier
  let s ← orFail (← orPanic (Stream.create t length))
  place name (.stream s)
  return .done

/-- Creates a party of calls. Its configuration is read before the transport is
taken; a transport that the party cannot be created over is lost. -/
def newRpc (name carrier : String) (standard : Bool) (pageSize : Option Nat)
    (text : Option String) : Play Reply := do
  let configured ← match text with
    | none => pure Rpc.standardPageSize
    | some text => do pure (← config text).pageSize
  let t ← takeTransport carrier
  let rpc : Rpc Actor ← match t with
    | .slots c => pure (Rpc.create (.slots c))
    | .endpoint ep => do
        let (created, m) := Rpc.overEndpoint ep (← machine)
        setMachine m
        orFail created
  let rpc := { rpc with pageSize := pageSize.getD configured }
  let hasEndpoint := rpc.transport.isEndpoint
  if standard then
    let (result, rpc) := rpc.installStandard
    place name (.rpc rpc)
    return .party hasEndpoint (some result)
  else
    place name (.rpc rpc)
    return .party hasEndpoint none

/-- The capability of a party's own endpoint, if it has one. -/
def homeCap (rpc : Rpc Actor) : Option Cap :=
  match rpc.transport with
  | .endpoint ep => some ep.home
  | .slots _ => none

/-- Performs a step on a directory of services. -/
def onDirectory (name : String) (d : Directory (Rpc Actor)) : DirectoryAction → Play Reply
  | .install service rpcName keep => do
      let rpc ← takeRpc rpcName
      place name (.directory (d.install service rpc))
      match d.dedicated? service with
      | none => return .notReplaced
      | some old =>
          match keep with
          | some keep => place keep (.rpc old)
          | none => pure ()
          return .replaced (homeCap old)
  | .isDedicated service => return .dedicated (d.isDedicated service)
  | .channel service => return .channel (homeCap (d.channel service))
  | .describe => return .description (d.describe Rpc.describe)

/-! ### Any step -/

/-- Runs a part of a step, and gives a refusal as a value. -/
def settle {α : Type} (part : Play α) : Play (Except Refusal α) := fun scene =>
  match part scene with
  | .ok a scene => .ok (.ok a) scene
  | .error (.refused r) scene => .ok (.error r) scene
  | .error (.halted h) scene => .error (.halted h) scene

/-- A reply, or why there is none, and nothing else. -/
def plain (part : Play Reply) : Play Performance := return { result := ← settle part }

/-- Performs a step on the transport of an object, and reports the state that it is
left in. -/
def onTransport {τ : Type} (name : String) (select : Transport → Option τ)
    (toTransport : τ → Transport) (part : τ → Play (Reply × τ)) (status : τ → Play Status) :
    Play Performance := do
  let o ← object name
  match o.transport?.bind select with
  | none => unknown
  | some before =>
      match ← settle (part before) with
      | .error .unknown => unknown
      | .error r => return { result := .error r, status := some (← status before) }
      | .ok (reply, after) =>
          place name (o.setTransport (toTransport after))
          return { result := .ok reply, status := some (← status after) }

/-- The endpoint that a transport is. -/
def endpoint? : Transport → Option Endpoint
  | .endpoint ep => some ep
  | .slots _ => none

/-- The channel over shared memory that a transport is. -/
def slots? : Transport → Option SlotChannel
  | .slots c => some c
  | .endpoint _ => none

/-- Performs a step on a stream. -/
def onStream (name : String) (action : StreamAction) (turns : List (Turn Cast)) :
    Play Performance := do
  match ← object name with
  | .stream s =>
      let (reader, result) ← run name ({ stream := s } : Reader) (fun r => .stream r.stream) turns
        action.task
      let status := .stream reader.stream.closed reader.stream.buffered
      let buffer := action.bufferLength?.map fun n => reader.buffer n unfilled
      return { result := result.mapError .failed, buffer, status := some status }
  | _ => unknown

/-- Performs a step on a party of calls, or on one of a directory's. -/
def onRpc (name : String) (service : Service) (action : RpcAction) (turns : List (Turn Cast)) :
    Play Performance := do
  let task ← rpcTask action
  match ← object name with
  | .rpc r =>
      let (r, result) ← run name r .rpc turns task
      return { result := result.mapError .failed, status := some (.rpc r.isOutstanding) }
  | .directory d =>
      let (d, result) ← run name d .directory turns
        (Task.within (·.channel service) (fun r d => d.setChannel service r) task)
      let status := .rpc (d.channel service).isOutstanding
      return { result := result.mapError .failed, status := some status }
  | _ => unknown

/-- Performs a step, given what the others do during its waits. -/
def perform (turns : List (Turn Cast)) : Action → Play Performance
  | .kernel action => plain (onKernel action)
  | .newView name bytes => plain do
      let m ← machine
      let (v, memory) ← orPanic (m.memory.allocate bytes)
      setMachine { m with memory }
      place name (.view v)
      return .view v
  | .view name action => plain do onView (← view name) action
  | .newBell name => plain do
      let m ← machine
      let (b, bells) := m.bells.create
      setMachine { m with bells }
      place name (.bell b)
      return .done
  | .bell name action => plain do onBell (← bell name) action
  | .endpoint name action => onTransport name endpoint? .endpoint (onEndpoint · action) endpointStatus
  | .newSlots name slotBytes sendPane recvPane => plain do
      placeSlots name (SlotChannel.create slotBytes (← view sendPane) (← view recvPane))
  | .newSlotsOver name slotBytes frame firstHalf => plain do
      placeSlots name (SlotChannel.overHalves (← view frame) slotBytes firstHalf)
  | .slots name action => onTransport name slots? .slots (onSlots · action) slotStatus
  | .newStream name carrier ring => plain (newStream name carrier ring)
  | .stream name action => onStream name action turns
  | .newRpc name carrier standard pageSize text => plain (newRpc name carrier standard pageSize text)
  | .rpc name service action => onRpc name service action turns
  | .newDirectory name init => plain do
      place name (.directory { init := ← takeRpc init })
      return .done
  | .directory name action => plain do
      match ← object name with
      | .directory d => onDirectory name d action
      | _ => unknown

end Play

end Conduit.Script

/-
# What a kernel is asked for

Whoever holds a kernel or an endpoint of it may ask for endpoints, slots and frames, leave a
message and take one, at any time and in any order. `Machine.serve` performs one request, and
`Machine.serveAll` performs requests one after the other and logs them with their answers. An
endpoint is given as it is when it asks, so it may have been bound to another peer since.

* `Served` — all that one request can do where no fault is planned.
* `serveAll_keeps` — what every request keeps, any requests in a row keep; they all return,
  unless a frame is asked for that no memory could hold.
-/

import Conduit.Proofs.Kernel.Quiet

namespace Conduit

namespace Kernel

/-- What a kernel can be asked. -/
inductive Request where
  /-- For a new endpoint. -/
  | endpoint
  /-- For two new endpoints that are each other's peers. -/
  | channel
  /-- For a slot. -/
  | slot
  /-- For a frame of at least this many bytes. -/
  | frame (bytes : Nat)
  /-- For the memory of a frame. -/
  | map (frame : Cap)
  /-- For a slot for the next capability that is received. -/
  | recvSlot (ep : Endpoint)
  /-- To queue a message that comes from no endpoint. -/
  | inject (target : Cap) (letter : Letter)
  /-- To queue a message at the peer of an endpoint. -/
  | send (ep : Endpoint) (flags : SendFlags) (letter : Letter)
  /-- For the oldest message that waits at an endpoint. -/
  | recv (ep : Endpoint)

/-- What a kernel answers if it does not refuse. -/
inductive Reply where
  | endpoint (ep : Endpoint)
  | channel (a b : Endpoint)
  | slot (cap : Cap)
  | frame (cap : Cap)
  | view (v : View)
  | letter (letter : Letter)
  | done

namespace Request

/-- How many slots a request asks for. -/
def demand : Request → Nat
  | endpoint | slot | frame _ | recvSlot _ => 1
  | channel => 2
  | map _ | inject _ _ | send _ _ _ | recv _ => 0

/-- The endpoint at which a request would queue a message, the message, and how it is sent. -/
def posts : Request → Option (Cap × Letter × SendFlags)
  | inject target letter => some (target, letter, .none)
  | send ep flags letter => ep.peer.map (·, letter, flags)
  | _ => none

/-- A message is queued by who has no endpoint, or by who has one with a peer. -/
theorem posts_cases {r : Request} {target : Cap} {letter : Letter} {flags : SendFlags}
    (posts : r.posts = some (target, letter, flags)) :
    r = .inject target letter ∧ flags = .none ∨
      ∃ ep, r = .send ep flags letter ∧ ep.peer = some target := by
  cases r with
  | inject target letter =>
      cases posts
      exact .inl ⟨rfl, rfl⟩
  | send ep flags letter =>
      obtain ⟨peer, known, same⟩ := Option.map_eq_some_iff.mp posts
      cases same
      exact .inr ⟨ep, rfl, known⟩
  | _ => cases posts

end Request

/-- The slots that are handed out to who asks for this many, one after the other. -/
def slotsFor (k : Kernel) : (demand : Nat) → List Cap
  | 0 => []
  | demand + 1 =>
      match k.allocSlot with
      | .error _ => []
      | .ok (cap, k) => cap :: k.slotsFor demand

/-- One request of a run. -/
structure Event where
  /-- What was asked. -/
  request : Request
  /-- What was answered. -/
  answer : Except ChannelError Reply
  /-- The slots that were handed out for it, whether the answer names them or not. -/
  slots : List Cap

end Kernel

open Kernel

namespace Machine

/-- Performs a request. -/
def serve (m : Machine) : Request → Except Panic (Except ChannelError Reply × Machine)
  | .endpoint => .ok ((Endpoint.create m).map (·.map .endpoint) id)
  | .channel => .ok ((Endpoint.createPair m).map (·.map fun ends => .channel ends.1 ends.2) id)
  | .slot => .ok ((m.onKernel Kernel.allocSlot).map (·.map .slot) id)
  | .frame bytes => do
      let (answer, m) ← m.allocFrame bytes
      return (answer.map .frame, m)
  | .map frame => .ok ((m.kernel.mapFrame frame).map .view, m)
  | .recvSlot ep => .ok ((ep.allocRecvSlot m).map (·.map fun _ => .done) id)
  | .inject target letter =>
      .ok ((m.onKernel_ (·.inject target letter)).map (·.map fun _ => .done) id)
  | .send ep flags letter => .ok ((ep.send flags letter m).map (·.map fun _ => .done) id)
  | .recv ep => .ok ((ep.recv m).map (·.map .letter) id)

/-- Performs requests in order, and logs them with their answers. -/
def serveAll : List Request → Machine → Except Panic (List Event × Machine)
  | [], m => .ok ([], m)
  | request :: requests, m => do
      let (answer, m') ← m.serve request
      let (log, last) ← serveAll requests m'
      return (⟨request, answer, m.kernel.slotsFor request.demand⟩ :: log, last)

/-! ### Slots -/

/-- The capability of the next slot. -/
def nextCap (m : Machine) : Cap := ⟨m.kernel.nextSlot⟩

/-- The machine after a slot was handed out. -/
def granted (m : Machine) : Machine :=
  { m with kernel := { m.kernel with nextSlot := m.kernel.nextSlot + 1 } }

/-- The machine after a slot was handed out for the next capability. -/
def rearmed (m : Machine) : Machine :=
  { m with kernel := { m.kernel with
      nextSlot := m.kernel.nextSlot + 1, recvSlots := m.kernel.recvSlots + 1 } }

/-- The machine with a new endpoint, at which nothing waits. -/
def opened (m : Machine) : Machine := m.granted.fetched m.nextCap []

/-- The machine with a new frame, which is this view of a larger memory. -/
def framed (m : Machine) (v : View) (memory : Memory) : Machine :=
  { m with
    memory
    kernel := { m.kernel with
      nextSlot := m.kernel.nextSlot + 1, frames := m.kernel.frames.insert m.nextCap v } }

variable {m m' : Machine}

theorem allocSlot_ok (left : m.Room 1) : m.kernel.allocSlot = .ok (m.nextCap, m.granted.kernel) :=
  if_neg left.slot_ne

theorem allocSlot_error (left : ¬ m.Room 1) : m.kernel.allocSlot = .error .noSpace :=
  if_pos (Decidable.not_not.mp fun more => left (room_of_slot_ne more))

theorem room_granted {n : Nat} (left : m.Room 1) : m.granted.Room n ↔ m.Room (n + 1) := by
  unfold Room
  rw [show m.granted.kernel.nextSlot.toNat = _ from toNat_nextSlot_succ left, Nat.add_right_comm,
    Nat.add_assoc]

theorem slotsFor_one (left : m.Room 1) : m.kernel.slotsFor 1 = [m.nextCap] := by
  simp only [slotsFor, allocSlot_ok left]

theorem slotsFor_none (left : ¬ m.Room 1) (demand : Nat) : m.kernel.slotsFor demand = [] := by
  cases demand with
  | zero => rfl
  | succ demand => simp only [slotsFor, allocSlot_error left]

theorem slotsFor_two (left : m.Room 1) :
    m.kernel.slotsFor 2 = m.nextCap :: m.granted.kernel.slotsFor 1 := by
  rw [slotsFor, allocSlot_ok left]

theorem create_ok (left : m.Room 1) : Endpoint.create m = (.ok { home := m.nextCap }, m.opened) := by
  simp only [Endpoint.create, onKernel, createEndpoint, allocSlot_ok left]
  rfl

theorem create_error (left : ¬ m.Room 1) : Endpoint.create m = (.error .noSpace, m) := by
  simp only [Endpoint.create, onKernel, createEndpoint, allocSlot_error left]
  rfl

theorem room_opened {n : Nat} (left : m.Room 1) : m.opened.Room n ↔ m.Room (n + 1) :=
  room_granted left

end Machine

/-! ### One request -/

/-- All that one request can do where no fault is planned: what is answered, the slots that are
handed out, and the machine afterwards. -/
inductive Served (m : Machine) : Request → Except ChannelError Reply → List Cap → Machine → Prop
  | refused {r : Request} {e : ChannelError} : Served m r (.error e) [] m
  | endpoint (left : m.Room 1) :
      Served m .endpoint (.ok (.endpoint { home := m.nextCap })) [m.nextCap] m.opened
  | channel (left : m.Room 2) :
      Served m .channel (.ok (.channel { home := m.nextCap, peer := some m.opened.nextCap }
        { home := m.opened.nextCap, peer := some m.nextCap })) [m.nextCap, m.opened.nextCap]
        m.opened.opened
  /-- The last slot is gone with the first end, and nothing is left for the second. -/
  | lone (left : m.Room 1) (last : ¬ m.Room 2) :
      Served m .channel (.error .noSpace) [m.nextCap] m.opened
  | slot (left : m.Room 1) : Served m .slot (.ok (.slot m.nextCap)) [m.nextCap] m.granted
  | frame {bytes : Nat} {v : View} {memory : Memory} (left : m.Room 1)
      (allocated : m.memory.allocate bytes = .ok (v, memory)) :
      Served m (.frame bytes) (.ok (.frame m.nextCap)) [m.nextCap] (m.framed v memory)
  | map {frame : Cap} {v : View} (named : m.kernel.frames.get? frame = some v) :
      Served m (.map frame) (.ok (.view v)) [] m
  | recvSlot {ep : Endpoint} (left : m.Room 1) :
      Served m (.recvSlot ep) (.ok .done) [m.nextCap] m.rearmed
  | queued {r : Request} {target : Cap} {letter : Letter} {flags : SendFlags}
      {queue : List Letter} (posts : r.posts = some (target, letter, flags))
      (held : m.kernel.queues.get? target = some queue) (space : queue.length < m.kernel.depth) :
      Served m r (.ok .done) [] (m.posted target (queue ++ [letter]) flags)
  | taken {ep : Endpoint} {letter : Letter} {rest : List Letter}
      (held : m.kernel.queues.get? ep.home = some (letter :: rest)) :
      Served m (.recv ep) (.ok (.letter letter)) [] (m.fetched ep.home rest)

namespace Machine

variable {m m' : Machine} {answer : Except ChannelError Reply}

theorem served_channel (served : m.serve .channel = .ok (answer, m')) :
    Served m .channel answer (m.kernel.slotsFor 2) m' := by
  simp only [serve, Endpoint.createPair] at served
  by_cases left : m.Room 1
  · rw [slotsFor_two left]
    by_cases second : m.Room 2
    · have room : m.opened.Room 1 := (room_opened left).mpr second
      rw [create_ok left] at served
      simp only [create_ok room] at served
      cases served
      rw [slotsFor_one ((room_granted left).mpr second)]
      exact .channel second
    · have room : ¬ m.opened.Room 1 := fun room => second ((room_opened left).mp room)
      rw [create_ok left] at served
      simp only [create_error room] at served
      cases served
      rw [slotsFor_none (mt (room_granted left).mp second)]
      exact .lone left second
  · rw [slotsFor_none left, create_error left] at *
    cases served
    exact .refused

theorem served_frame {bytes : Nat} (served : m.serve (.frame bytes) = .ok (answer, m')) :
    Served m (.frame bytes) answer (m.kernel.slotsFor 1) m' := by
  simp only [serve] at served
  obtain ⟨⟨named, last⟩, ran, served⟩ := of_bind_ok served
  cases served
  obtain ⟨full, rfl, rfl⟩ | ⟨view, memory, rfl, left, allocated, rfl⟩ := allocFrame_effect ran
  · rw [slotsFor_none fun left => left.slot_ne full]
    exact .refused
  · have room := room_of_slot_ne left
    rw [slotsFor_one room]
    exact .frame room allocated

/-- Whoever has a message queued, it is queued in the same way. -/
theorem serve_post (quiet : m.Quiet) {r : Request} {target : Cap} {letter : Letter}
    {flags : SendFlags} (posts : r.posts = some (target, letter, flags)) :
    m.serve r =
      .ok ((m.onKernel_ (·.enqueue target letter flags)).map (·.map fun _ => .done) id) := by
  obtain ⟨rfl, rfl⟩ | ⟨ep, rfl, known⟩ := Request.posts_cases posts
  · rfl
  · simp only [serve, Endpoint.send, Endpoint.unlessFault, quiet.nextFault, known]

/-- Whatever is to be queued is queued where there is room for it, and otherwise refused. -/
theorem served_post (quiet : m.Quiet) {r : Request} {target : Cap} {letter : Letter}
    {flags : SendFlags} (posts : r.posts = some (target, letter, flags))
    (served : m.serve r = .ok (answer, m')) : Served m r answer [] m' := by
  rw [serve_post quiet posts] at served
  simp only [onKernel_, onKernel, enqueue] at served
  cases held : m.kernel.queues.get? target with
  | none =>
      rw [held] at served
      cases served
      exact .refused
  | some queue =>
      rw [held] at served
      by_cases full : queue.length ≥ m.kernel.depth
      · simp only [if_pos full] at served
        cases served
        exact .refused
      · simp only [if_neg full] at served
        cases served
        exact .queued posts held (Nat.lt_of_not_le full)

theorem serve_unbound (quiet : m.Quiet) {ep : Endpoint} (unbound : ep.peer = none)
    (flags : SendFlags) (letter : Letter) :
    m.serve (.send ep flags letter) = .ok (.error .notConnected, m) := by
  simp only [serve, Endpoint.send, Endpoint.unlessFault, quiet.nextFault, unbound]
  rfl

theorem served_recv (quiet : m.Quiet) {ep : Endpoint}
    (served : m.serve (.recv ep) = .ok (answer, m')) : Served m (.recv ep) answer [] m' := by
  simp only [serve, Endpoint.recv, Endpoint.unlessFault, quiet.nextFault, onKernel,
    dequeue] at served
  cases held : m.kernel.queues.get? ep.home with
  | none =>
      rw [held] at served
      cases served
      exact .refused
  | some queue =>
      rw [held] at served
      cases queue with
      | nil =>
          cases served
          exact .refused
      | cons letter rest =>
          cases served
          exact .taken held

/-- A request does one of these things. -/
theorem serve_served (quiet : m.Quiet) {r : Request} (served : m.serve r = .ok (answer, m')) :
    Served m r answer (m.kernel.slotsFor r.demand) m' := by
  cases r with
  | channel => exact served_channel served
  | frame bytes => exact served_frame served
  | recv ep => exact served_recv quiet served
  | inject target letter => exact served_post quiet rfl served
  | send ep flags letter =>
      cases known : ep.peer with
      | none =>
          rw [serve_unbound quiet known] at served
          cases served
          exact .refused
      | some peer => exact served_post quiet (congrArg (Option.map _) known) served
  | endpoint =>
      simp only [serve] at served
      by_cases left : m.Room 1
      · rw [create_ok left] at served
        cases served
        exact slotsFor_one left ▸ .endpoint left
      · rw [create_error left] at served
        cases served
        exact slotsFor_none left 1 ▸ .refused
  | slot =>
      simp only [serve, onKernel] at served
      by_cases left : m.Room 1
      · rw [allocSlot_ok left] at served
        cases served
        exact slotsFor_one left ▸ .slot left
      · rw [allocSlot_error left] at served
        cases served
        exact slotsFor_none left 1 ▸ .refused
  | recvSlot ep =>
      simp only [serve, Endpoint.allocRecvSlot, Endpoint.unlessFault, quiet.nextFault, onKernel_,
        onKernel, allocRecvSlot] at served
      by_cases left : m.Room 1
      · rw [allocSlot_ok left] at served
        cases served
        exact slotsFor_one left ▸ .recvSlot left
      · rw [allocSlot_error left] at served
        cases served
        exact slotsFor_none left 1 ▸ .refused
  | map frame =>
      simp only [serve, mapFrame] at served
      cases named : m.kernel.frames.get? frame with
      | none =>
          rw [named] at served
          cases served
          exact .refused
      | some v =>
          rw [named] at served
          cases served
          exact .map named

/-- A request returns, unless it asks for a frame that no memory could hold. -/
theorem serve_returns (m : Machine) (r : Request) :
    (∃ answer m', m.serve r = .ok (answer, m')) ∨
      m.serve r = .error .tooLarge ∧
        ∃ bytes, r = .frame bytes ∧ Memory.wordLimit ≤ Word.countFor bytes := by
  cases r with
  | frame bytes =>
      simp only [serve, allocFrame]
      cases slot : m.kernel.allocSlot with
      | error e => exact .inl ⟨_, _, rfl⟩
      | ok named =>
          by_cases small : Word.countFor bytes < Memory.wordLimit
          · refine .inl ?_
            simp only [Memory.allocate, if_pos small]
            exact ⟨_, _, rfl⟩
          · refine .inr ⟨?_, bytes, rfl, Nat.le_of_not_lt small⟩
            simp only [Memory.allocate, if_neg small]
            rfl
  | endpoint => exact .inl ⟨_, _, rfl⟩
  | channel => exact .inl ⟨_, _, rfl⟩
  | slot => exact .inl ⟨_, _, rfl⟩
  | map frame => exact .inl ⟨_, _, rfl⟩
  | recvSlot ep => exact .inl ⟨_, _, rfl⟩
  | inject target letter => exact .inl ⟨_, _, rfl⟩
  | send ep flags letter => exact .inl ⟨_, _, rfl⟩
  | recv ep => exact .inl ⟨_, _, rfl⟩

end Machine

/-- Nothing that is asked of a kernel plans a fault. -/
theorem Served.quiet {m m' : Machine} {r : Request} {answer : Except ChannelError Reply}
    {slots : List Cap} (served : Served m r answer slots m') (quiet : m.Quiet) : m'.Quiet := by
  cases served <;> exact quiet

/-! ### Any requests -/

/-- What every request keeps of a log and a machine, any requests in a row keep, and all of them
are answered. They end early only where a frame is asked for that no memory could hold. -/
theorem Machine.serveAll_keeps (Keeps : List Event → Machine → Prop)
    (step : ∀ {log : List Event} {m m' : Machine} {r : Request} {answer : Except ChannelError Reply}
      {slots : List Cap}, Keeps log m → Served m r answer slots m' →
        Keeps (log ++ [⟨r, answer, slots⟩]) m')
    {log : List Event} {m : Machine} (quiet : m.Quiet) (now : Keeps log m)
    (requests : List Request) :
    (∃ later m', m.serveAll requests = .ok (later, m') ∧ later.map Event.request = requests ∧
        m'.Quiet ∧ Keeps (log ++ later) m') ∨
      m.serveAll requests = .error .tooLarge ∧
        ∃ bytes, .frame bytes ∈ requests ∧ Memory.wordLimit ≤ Word.countFor bytes := by
  induction requests generalizing log m with
  | nil => exact .inl ⟨[], m, rfl, rfl, quiet, (List.append_nil log).symm ▸ now⟩
  | cons r requests ih =>
      rcases m.serve_returns r with ⟨answer, m₁, returns⟩ | ⟨panics, bytes, asked, large⟩
      · have served := serve_served quiet returns
        have next := step now served
        rcases ih (served.quiet quiet) next with
          ⟨later, m', ran, asked, quiet', kept⟩ | ⟨panics, bytes, asked, large⟩
        · refine .inl ⟨⟨r, answer, m.kernel.slotsFor r.demand⟩ :: later, m', ?_, ?_, quiet', ?_⟩
          · simp only [serveAll, returns, ran, bind, Except.bind]
            rfl
          · rw [List.map_cons, asked]
          · rw [List.append_assoc] at kept
            exact kept
        · refine .inr ⟨?_, bytes, List.mem_cons_of_mem _ asked, large⟩
          simp only [serveAll, returns, panics, bind, Except.bind]
      · refine .inr ⟨?_, bytes, asked ▸ List.mem_cons_self, large⟩
        simp only [serveAll, panics, bind, Except.bind]

end Conduit

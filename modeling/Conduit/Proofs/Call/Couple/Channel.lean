/-
# A party at one end of a channel

On a channel without faults a step of the party at one end takes the oldest of the messages
that wait for it, or adds one to those that wait for its peer, or leaves the channel alone
(`carried_of_deal`), and what is refused changes nothing. Frames stay what they are throughout:
a new one gets a slot that no other has (`Machine.Onward`).
-/

import Conduit.Proofs.Call.Conduct.Sound
import Conduit.Proofs.Call.Inbox

namespace Conduit

namespace Machine

/-- The slots of all frames were handed out. -/
def Numbered (m : Machine) : Prop :=
  ∀ frame view, m.kernel.frames.get? frame = some view → frame.slot < m.kernel.nextSlot

/-- No slot is left. -/
def Exhausted (m : Machine) : Prop := m.kernel.nextSlot = 0xffffffff

/-- Frames stay what they are, and no slot is handed out again. -/
structure Onward (m m' : Machine) : Prop where
  frames : ∀ frame view, m.kernel.frames.get? frame = some view →
    m'.kernel.frames.get? frame = some view
  slots : m.kernel.nextSlot ≤ m'.kernel.nextSlot
  numbered : m'.Numbered

variable {m m' : Machine}

theorem Onward.of_steady (numbered : m.Numbered) (steady : m.Steady m') : m.Onward m' where
  frames frame view known := by rw [steady.frames, known]
  slots := steady.slots
  numbered frame view known := by
    rw [steady.frames] at known
    exact UInt32.lt_of_lt_of_le (numbered frame view known) steady.slots

theorem Onward.refl (numbered : m.Numbered) : m.Onward m := .of_steady numbered (.refl m)

/-- A new frame gets a slot that no other has. -/
theorem Onward.callAllocFrame {bytes : Nat} {answer : Except ChannelError Cap}
    (numbered : m.Numbered) (ran : m.callAllocFrame bytes = .ok (answer, m')) : m.Onward m' := by
  obtain ⟨-, ⟨e, -, same⟩ | ⟨view, memory, -, last, -, same⟩⟩ := callAllocFrame_effect ran
  · have frames : m'.kernel.frames = m.kernel.frames := by rw [same]
    have slots : m'.kernel.nextSlot = m.kernel.nextSlot := by rw [same]
    exact ⟨fun frame view known => by rw [frames, known], by rw [slots]; exact UInt32.le_refl _,
      fun frame view known => by rw [slots]; exact numbered frame view (frames ▸ known)⟩
  · have grew := Kernel.slot_le_succ last
    have frames : ∀ frame, m'.kernel.frames.get? frame =
        if ⟨m.kernel.nextSlot⟩ = frame then some view else m.kernel.frames.get? frame := by
      intro frame
      rw [same]
      exact Table.get?_insert ..
    have slots : m'.kernel.nextSlot = m.kernel.nextSlot + 1 := by rw [same]
    refine ⟨fun frame found known => ?_, slots ▸ grew, fun frame found known => ?_⟩
    · have below := numbered frame found known
      rw [frames, if_neg, known]
      intro here
      rw [← here] at below
      exact absurd below (UInt32.lt_irrefl _)
    · rw [frames] at known
      rw [slots]
      have next := toNat_nextSlot_succ (room_of_slot_ne last)
      split at known
      case isTrue here =>
        rw [← here, UInt32.lt_iff_toNat_lt, next]
        exact Nat.lt_succ_self _
      case isFalse => exact UInt32.lt_of_lt_of_le (numbered frame found known) grew

/-- Once no slot is left, none will be. -/
theorem Onward.exhausted (onward : m.Onward m') (exhausted : m.Exhausted) : m'.Exhausted := by
  have slots := onward.slots
  have below := m'.kernel.nextSlot.toNat_lt
  unfold Exhausted at exhausted ⊢
  rw [exhausted, UInt32.le_iff_toNat_le] at slots
  refine UInt32.toNat_inj.mp ?_
  change 4294967295 ≤ _ at slots
  change _ = 4294967295
  omega

end Machine

/-- Allocating a frame leaves the queues alone. -/
theorem Duplex.callAllocFrame {m m' : Machine} {a b : Cap} {atA atB : List Letter} {bytes : Nat}
    {answer : Except ChannelError Cap} (duplex : Duplex m a b atA atB)
    (ran : m.callAllocFrame bytes = .ok (answer, m')) : Duplex m' a b atA atB := by
  obtain ⟨faults, effect⟩ := Machine.callAllocFrame_effect ran
  rw [duplex.quiet.nextFault] at faults
  obtain ⟨e, -, same⟩ | ⟨view, memory, -, -, -, same⟩ := effect
  · exact duplex.congr (by rw [same]) (by rw [same]) faults
  · exact duplex.congr (by rw [same]) (by rw [same]) faults

namespace Rpc

variable {η : Type}

/-- The party is at one end of a channel, and knows the other. -/
def Joins (a b : Cap) (rpc : Rpc η) : Prop :=
  ∃ ep, rpc.transport = .endpoint ep ∧ ep.home = a ∧ ep.peer = some b

/-- A request to answer another endpoint names this one. -/
def Introduces (b : Cap) (message : Message) : Prop :=
  message.tag = initiate.code → ∀ c, message.cap = some c → c = b

/-- What a step of the party at one end does to the channel. -/
structure Carried (a b : Cap) (atA : List Message) (atB : List Message) (s : Seat η)
    (events : List Event) (s' : Seat η) : Prop where
  joins : Joins a b s'.rpc
  onward : s.machine.Onward s'.machine
  queues : ∃ lettersA lettersB, Duplex s'.machine a b lettersA lettersB ∧
    receivedIn events ++ lettersA.map Letter.message = atA ∧
    lettersB.map Letter.message =
      atB ++ (sentIn events).map fun message => message.letter.message

section Step

variable {a b : Cap} {atA atB : List Letter} {calls : MessageType → List Value → Prop}
  {notices : Prop} {s s' : Seat η} {events : List Event}

theorem Carried.quiet {machine : Machine} {rpc : Rpc η} {phase : Phase} (joins : Joins a b rpc)
    (duplex : Duplex machine a b atA atB) (onward : s.machine.Onward machine) :
    Carried a b (atA.map Letter.message) (atB.map Letter.message) s [] ⟨phase, rpc, machine⟩ :=
  ⟨joins, onward, atA, atB, duplex, rfl, (List.append_nil _).symm⟩

/-! What an endpoint refuses changes nothing. -/

section Refused

variable {ep : Endpoint} {m m' : Machine} {e : ChannelError}

/-- Sending is refused only where the queue of the peer is full. -/
theorem eq_of_send_refused {flags : SendFlags} {letter : Letter} (duplex : Duplex m a b atA atB)
    (peer : ep.peer = some b) (refused : ep.send flags letter m = (.error e, m')) : m' = m := by
  have spared := duplex.quiet.spares ep.home .send
  by_cases full : m.kernel.depth ≤ atB.length
  · rw [Endpoint.send_full spared peer duplex.atB full] at refused
    cases refused
    rfl
  · rw [Endpoint.send_space spared peer duplex.atB (Nat.lt_of_not_le full)] at refused
    cases refused

/-- Receiving is refused only where nothing waits. -/
theorem eq_of_recv_refused (duplex : Duplex m a b atA atB) (home : ep.home = a)
    (refused : ep.recv m = (.error e, m')) : e = .noMessage ∧ m' = m := by
  have spared := duplex.quiet.spares ep.home .recv
  cases atA with
  | nil =>
      rw [Endpoint.recv_nil spared (home ▸ duplex.atA)] at refused
      cases refused
      exact ⟨rfl, rfl⟩
  | cons letter rest =>
      rw [Endpoint.recv_cons spared (home ▸ duplex.atA)] at refused
      cases refused

theorem eq_of_slot_refused (duplex : Duplex m a b atA atB)
    (refused : ep.allocRecvSlot m = (.error e, m')) : m' = m := by
  obtain ⟨m₁, -, -, allocated⟩ | ⟨-, refused'⟩ := duplex.allocRecvSlot
  · cases (allocated ep).symm.trans refused
  · cases (refused' ep).symm.trans refused
    rfl

end Refused

section Moved

variable {message : Message} {transport : Transport} {machine : Machine} {phase : Phase}
  (joins : Joins a b s.rpc) (duplex : Duplex s.machine a b atA atB)
  (numbered : s.machine.Numbered)

include joins duplex numbered

/-- What is sent goes to the other end. -/
theorem Carried.posted
    (posts : Transport.Posts message s.rpc.transport s.machine transport machine) :
    Carried a b (atA.map Letter.message) (atB.map Letter.message) s [.sent message]
      ⟨phase, { s.rpc with transport }, machine⟩ := by
  obtain ⟨ep, across, home, peer⟩ := joins
  rw [across] at posts
  cases posts with
  | endpoint sent =>
      have spared := duplex.quiet.spares ep.home .send
      have onward := Machine.Onward.of_steady numbered (Endpoint.steady_send sent)
      by_cases full : s.machine.kernel.depth ≤ atB.length
      · rw [Endpoint.send_full spared peer duplex.atB full] at sent
        cases sent
      · rw [Endpoint.send_space spared peer duplex.atB (Nat.lt_of_not_le full)] at sent
        cases sent
        exact ⟨⟨ep, rfl, home, peer⟩, onward, _, _, duplex.posted _ _, rfl, List.map_append⟩

/-- What is taken is the oldest message that waits. -/
theorem Carried.drawn
    (draws : Transport.Draws message s.rpc.transport s.machine transport machine) :
    Carried a b (atA.map Letter.message) (atB.map Letter.message) s [.received message]
      ⟨phase, { s.rpc with transport }, machine⟩ := by
  obtain ⟨ep, across, home, peer⟩ := joins
  rw [across] at draws
  cases draws with
  | endpoint received =>
      have spared := duplex.quiet.spares ep.home .recv
      have onward := Machine.Onward.of_steady numbered (Endpoint.steady_recv received)
      cases atA with
      | nil =>
          rw [Endpoint.recv_nil spared (home ▸ duplex.atA)] at received
          cases received
      | cons letter rest =>
          rw [Endpoint.recv_cons spared (home ▸ duplex.atA)] at received
          cases received
          rw [home] at onward ⊢
          exact ⟨⟨ep, rfl, home, peer⟩, onward, _, _, duplex.fetched rest, rfl,
            (List.append_nil _).symm⟩

/-- Looking after notifications leaves the channel alone. -/
theorem Carried.noticed
    (noticed : Transport.Notices s.rpc.transport s.machine transport machine) :
    Carried a b (atA.map Letter.message) (atB.map Letter.message) s []
      ⟨phase, { s.rpc with transport }, machine⟩ := by
  obtain ⟨ep, across, home, peer⟩ := joins
  have still := Machine.Onward.refl numbered
  have registers : ep.register s.machine = (.ok { ep with armed := true }, s.machine) := by
    simp only [Endpoint.register, Endpoint.unlessFault, duplex.quiet.nextFault]
  rw [across] at noticed
  cases noticed with
  | event =>
      obtain ⟨home', peer'⟩ := Endpoint.takeEvent_ends ep s.machine
      exact .quiet ⟨_, rfl, home'.trans home, peer'.trans peer⟩ duplex still
  | armed granted =>
      cases registers.symm.trans granted
      exact .quiet ⟨_, rfl, home, peer⟩ duplex still
  | unarmed refused => cases registers.symm.trans refused

end Moved

/-- Without faults a step takes the oldest message, or adds one, or does neither. -/
theorem carried_of_deal (joins : Joins a b s.rpc) (duplex : Duplex s.machine a b atA atB)
    (numbered : s.machine.Numbered)
    (introduced : ∀ request, s.phase = .serving request → Introduces b request)
    (deal : Deal calls notices s events s') :
    Carried a b (atA.map Letter.message) (atB.map Letter.message) s events s' := by
  obtain ⟨ep, across, home, peer⟩ := id joins
  have still := Machine.Onward.refl numbered
  cases deal with
  | send posts reason => exact .posted joins duplex numbered posts
  | unsent across' refused =>
      cases across.symm.trans across'
      obtain rfl := eq_of_send_refused duplex peer refused
      exact .quiet joins duplex still
  | take draws picks => exact .drawn joins duplex numbered draws
  | vain across' refused soft =>
      cases across.symm.trans across'
      obtain ⟨-, rfl⟩ := eq_of_recv_refused duplex home refused
      exact .quiet joins duplex still
  | barred across' refused hard =>
      cases across.symm.trans across'
      obtain ⟨-, rfl⟩ := eq_of_recv_refused duplex home refused
      exact .quiet joins duplex still
  | slot across' granted =>
      have onward := Machine.Onward.of_steady numbered (Endpoint.steady_allocRecvSlot granted)
      obtain ⟨m, duplex', -, allocated⟩ | ⟨-, refused⟩ := duplex.allocRecvSlot
      · cases (allocated _).symm.trans granted
        exact .quiet joins duplex' onward
      · cases (refused _).symm.trans granted
  | slotless across' refused =>
      obtain rfl := eq_of_slot_refused duplex refused
      exact .quiet joins duplex still
  | write across' written =>
      exact .quiet joins (duplex.congr rfl rfl rfl) ⟨still.1, still.2, still.3⟩
  | allocate across' answered =>
      exact .quiet joins (duplex.callAllocFrame answered) (.callAllocFrame numbered answered)
  | map across' frame =>
      have same : s.machine.callMapFrame frame = (s.machine.kernel.mapFrame frame, s.machine) := by
        simp only [Machine.callMapFrame, duplex.quiet.nextFault]
      rw [same]
      exact .quiet joins duplex still
  | prepare _ across' idle answered =>
      exact .quiet joins (duplex.callAllocFrame answered) (.callAllocFrame numbered answered)
  | mark => exact .quiet joins duplex still
  | unmark => exact .quiet joins duplex still
  | near => exact .quiet joins duplex still
  | far => exact .quiet joins duplex still
  | @adopt request ep' peer' across' inHand tagged carried =>
      cases across.symm.trans across'
      have same := introduced request inHand tagged peer' carried
      exact .quiet ⟨_, rfl, home, congrArg some same⟩ duplex still
  | answer => exact ⟨joins, still, atA, atB, duplex, rfl, (List.append_nil _).symm⟩
  | handlers => exact .quiet joins duplex still
  | @register binding rpc registered =>
      have joins' : Joins a b rpc := ⟨ep, (transport_register registered).trans across, home, peer⟩
      exact .quiet joins' duplex still
  | pageSize => exact .quiet joins duplex still
  | release => exact .quiet joins duplex still
  | notice may noticed => exact .noticed joins duplex numbered noticed

/-- No step loses memory. -/
theorem sustains_of_deal (joins : Joins a b s.rpc) (sound : Sound s)
    (deal : Deal calls notices s events s') : Sustains s.machine s'.machine := by
  obtain ⟨ep, across, -⟩ := joins
  cases deal with
  | send posts reason =>
      rw [across] at posts
      cases posts with
      | endpoint sent => exact .of_steady (Endpoint.steady_send sent)
  | unsent across' refused => exact .of_steady (Endpoint.steady_send refused)
  | take draws picks =>
      rw [across] at draws
      cases draws with
      | endpoint received => exact .of_steady (Endpoint.steady_recv received)
  | vain across' refused soft => exact .of_steady (Endpoint.steady_recv refused)
  | barred across' refused hard => exact .of_steady (Endpoint.steady_recv refused)
  | slot across' granted => exact .of_steady (Endpoint.steady_allocRecvSlot granted)
  | slotless across' refused => exact .of_steady (Endpoint.steady_allocRecvSlot refused)
  | @write t tag values side _ memory across' written =>
      obtain ⟨result, memory', encoded, grows, -⟩ :=
        Paged.encode_cases t tag values (sound.pages t side)
      cases encoded.symm.trans written
      exact .of_grows grows rfl
  | allocate across' answered => exact .callAllocFrame answered
  | map across' frame => exact .of_steady (s.machine.steady_callMapFrame frame)
  | prepare t across' idle answered shown => exact .callAllocFrame answered
  | notice may noticed =>
      rw [across] at noticed
      cases noticed with
      | event => exact .refl _
      | armed granted => exact .of_steady (Endpoint.steady_register granted)
      | unarmed refused => exact .of_steady (Endpoint.steady_register refused)
  | _ => exact .refl _

end Step

end Rpc

end Conduit

/-
# Requests and replies are told apart by a bit

The first word of a message says what the message is: a request of a type, or with the top bit
set the reply to one. A party sends a message for one of three reasons only (`Origin`): it makes
a call, it sets up a page for one, or it replies to a request that it took. Its peer takes the
message as a request of the type in the first word exactly if the top bit of that is clear, and
else drops it as a reply (`sorts_onMessage`); and a call accepts a message as its reply exactly
by the first word as well (`goes_call`).

A binding may be registered for any type, and nobody looks at the top bit of its number then.
Requests of a type whose number has that bit are taken for replies (`top_bit_strays`), and such
a type and its twin without the bit have the same replies (`MessageType.responseTag_eq_iff`).
Otherwise requests and replies are never confused.
-/

import Conduit.Proofs.Call.Calling
import Conduit.Proofs.Call.Conduct.Operations

namespace Conduit

namespace MessageType

variable {s t : MessageType}

theorem toBitVec_responseBit : responseBit.toBitVec = BitVec.twoPow 64 63 := rfl

theorem isResponse_eq_getLsbD (tag : UInt64) : isResponse tag = tag.toBitVec.getLsbD 63 := by
  have masked : (tag &&& responseBit).toBitVec =
      if tag.toBitVec.getLsbD 63 then BitVec.twoPow 64 63 else 0#64 := by
    rw [UInt64.toBitVec_and, toBitVec_responseBit]
    exact BitVec.and_twoPow _ _
  rw [isResponse, Bool.eq_iff_iff, bne_iff_ne, ne_eq, ← UInt64.toBitVec_inj, masked]
  cases tag.toBitVec.getLsbD 63 <;> decide

/-- The type whose number differs in the top bit. -/
def twin (t : MessageType) : MessageType := ⟨t.code ^^^ responseBit⟩

theorem isResponse_twin (t : MessageType) : isResponse t.twin.code = !isResponse t.code := by
  rw [isResponse_eq_getLsbD, isResponse_eq_getLsbD, twin, UInt64.toBitVec_xor, BitVec.getLsbD_xor,
    toBitVec_responseBit, BitVec.getLsbD_twoPow]
  simp

/-- A type shares its replies with its twin, and with no other type. -/
theorem responseTag_eq_iff : s.responseTag = t.responseTag ↔ s = t ∨ s = t.twin := by
  obtain ⟨a⟩ := s
  obtain ⟨b⟩ := t
  simp only [responseTag, twin, mk.injEq, ← UInt64.toBitVec_inj, UInt64.toBitVec_or,
    UInt64.toBitVec_xor, toBitVec_responseBit]
  generalize a.toBitVec = a, b.toBitVec = b
  constructor
  · intro same
    have bits : ∀ i, (a ||| BitVec.twoPow 64 63).getLsbD i = (b ||| BitVec.twoPow 64 63).getLsbD i :=
      fun i => by rw [same]
    simp only [BitVec.getLsbD_or, BitVec.getLsbD_twoPow] at bits
    by_cases top : a.getLsbD 63 = b.getLsbD 63
    · refine .inl (BitVec.eq_of_getLsbD_eq fun i hi => ?_)
      have bit := bits i
      grind
    · refine .inr (BitVec.eq_of_getLsbD_eq fun i hi => ?_)
      have bit := bits i
      simp only [BitVec.getLsbD_xor, BitVec.getLsbD_twoPow]
      grind
  · rintro (rfl | rfl)
    · rfl
    · refine BitVec.eq_of_getLsbD_eq fun i hi => ?_
      simp only [BitVec.getLsbD_or, BitVec.getLsbD_xor, BitVec.getLsbD_twoPow]
      grind

end MessageType

namespace Rpc

variable {η ζ σ τ : Type}

/-! ### Why a message is sent -/

/-- Why a party sent a message, if these are the calls it may make and these are the messages
that it took. -/
inductive Origin (calls : MessageType → List Value → Prop) (taken : List Message)
    (message : Message) : Prop where
  /-- It makes a call. -/
  | request {t : MessageType} {args : List Value} (made : calls t args)
      (tagged : message.tag = t.code)
  /-- It sets up a page. -/
  | setup (tagged : message.tag = setupPage.code)
  /-- It replies to a request. -/
  | reply {request : Message} (known : request ∈ taken)
      (asked : MessageType.isResponse request.tag = false)
      (tagged : message.tag = MessageType.responseTag ⟨request.tag⟩)

/-- What a party has in hand while it serves comes of a message that it took. -/
def Phase.Known (taken : List Message) : Phase → Prop
  | .serving request => request ∈ taken
  | .mapped _ _ => ∃ request ∈ taken, request.tag = setupPage.code
  | _ => True

/-- Whatever was sent was sent for a reason. -/
structure Explained (calls : MessageType → List Value → Prop) (events : List Event)
    (phase : Phase) : Prop where
  known : phase.Known (receivedIn events)
  sent : ∀ message ∈ sentIn events, Origin calls (receivedIn events) message

section Explained

variable {calls : MessageType → List Value → Prop} {notices : Prop} {taken more : List Message}
  {events later : List Event} {phase : Phase} {message : Message}

theorem Origin.mono (origin : Origin calls taken message) :
    Origin calls (taken ++ more) message := by
  cases origin with
  | request made tagged => exact .request made tagged
  | setup tagged => exact .setup tagged
  | reply known asked tagged => exact .reply (List.mem_append_left _ known) asked tagged

theorem Phase.Known.mono (known : phase.Known taken) : phase.Known (taken ++ more) := by
  cases phase with
  | serving request => exact List.mem_append_left _ known
  | mapped t page =>
      obtain ⟨request, mem, tagged⟩ := known
      exact ⟨request, List.mem_append_left _ mem, tagged⟩
  | _ => trivial

/-- A step that sends nothing. -/
theorem Explained.quiet (explained : Explained calls events phase) {phase' : Phase}
    (known : phase'.Known (receivedIn (events ++ later))) (silent : sentIn later = []) :
    Explained calls (events ++ later) phase' where
  known := known
  sent := by
    rw [sentIn_append, silent, List.append_nil, receivedIn_append]
    exact fun message mem => (explained.sent message mem).mono

/-- What is sent is sent for a reason. -/
theorem origin_of_reason {rpc : Rpc η} {phase' : Phase} (known : phase.Known taken)
    (reason : Reason calls rpc phase message phase') : Origin calls taken message := by
  cases reason with
  | ask => exact .setup rfl
  | request unmarked made tagged carried => exact .request made tagged
  | reply asked other tagged => exact .reply known asked tagged
  | confirm tagged =>
      obtain ⟨request, mem, setup⟩ := known
      refine .reply mem ?_ ?_
      · rw [setup]
        decide
      · rw [setup]
        exact tagged

/-- Whatever a party does next, it sends nothing without a reason. -/
theorem Explained.deal {s s' : Seat η} (explained : Explained calls events s.phase)
    (deal : Deal calls notices s later s') : Explained calls (events ++ later) s'.phase := by
  have known : s.phase.Known (receivedIn (events ++ later)) := by
    rw [receivedIn_append]
    exact explained.known.mono
  cases deal with
  | @send message phase transport m posts reason =>
      have origin : Origin calls (receivedIn (events ++ [.sent message])) message :=
        origin_of_reason known reason
      have known' : phase.Known (receivedIn (events ++ [.sent message])) := by
        generalize s.phase = before at reason
        cases reason with
        | _ => trivial
      refine ⟨known', fun other mem => ?_⟩
      rw [sentIn_append] at mem
      rcases List.mem_append.mp mem with old | new
      · rw [receivedIn_append]
        exact (explained.sent other old).mono
      · exact List.mem_singleton.mp new ▸ origin
  | @take message phase transport m draws picks =>
      refine explained.quiet ?_ rfl
      generalize s.phase = before at picks
      cases picks with
      | serve =>
          rw [receivedIn_append]
          exact List.mem_append_right _ List.mem_cons_self
      | _ => trivial
  | @far request t frame page entry inHand asks shown stored =>
      rw [inHand] at known
      exact explained.quiet ⟨request, known, asks.tagged⟩ rfl
  | barred => exact explained.quiet trivial rfl
  | slotless => exact explained.quiet trivial rfl
  | prepare => exact explained.quiet trivial rfl
  | near => exact explained.quiet trivial rfl
  | release => exact explained.quiet trivial rfl
  | _ => exact explained.quiet known rfl

/-- Wherever a party gets that began with nothing in hand. -/
theorem explained_of_course {terms : Terms σ} {start : Moment (Rpc η) σ} {stage : Stage η σ}
    (course : Course terms (.free, start) events stage) :
    Explained terms.calls events stage.1 := by
  induction course with
  | nil => exact ⟨trivial, fun _ mem => absurd mem List.not_mem_nil⟩
  | next _ last explained =>
      cases last with
      | pass => exact explained.quiet (by rw [List.append_nil]; exact explained.known) rfl
      | aside => exact explained.quiet (by rw [List.append_nil]; exact explained.known) rfl
      | deal deal => exact explained.deal deal

end Explained

/-! ### How a message is taken -/

variable [Handler ζ τ] {peer peer' : Moment (Rpc ζ) τ} {message : Message}
  {outcome : Except Error Dispatch}

/-- The message is served as a request of this type: it is refused if there is no binding of the
type, and else its arguments are read as the binding lists them and it is served as such requests
are. It is no stray reply, and the mark of an owed reply stays. -/
structure Requested (t : MessageType) (peer peer' : Moment (Rpc ζ) τ) (message : Message)
    (outcome : Except Error Dispatch) : Prop where
  unbound : peer.self.binding? t = none → outcome = .error (.unknownBinding t)
  bound : ∀ binding, peer.self.binding? t = some binding → ∃ mid events,
    Traced Move peer [.received message] mid ∧
      mid.self = { peer.self with transport := mid.self.transport } ∧ Traced Move mid events peer' ∧
      Service t (fun args => (mid.self.handlers.get? t).isSome = true ∧
        Reads mid.self mid.scene.machine t .far binding.args message args) outcome events
  notStray : ∀ tag, outcome ≠ .ok (.strayResponse tag)
  kept : Alike peer.self peer'.self

/-- The message is dropped as a reply, and the mark of an owed reply is taken away if that is
the reply. -/
structure Dropped (peer peer' : Moment (Rpc ζ) τ) (message : Message)
    (outcome : Except Error Dispatch) : Prop where
  reported : outcome = .ok (.strayResponse message.tag)
  mark : peer'.self.awaiting =
    if peer.self.awaiting.map MessageType.responseTag = some message.tag then none
    else peer.self.awaiting
  shapes : ∀ t, peer'.self.binding? t = peer.self.binding? t

omit [Handler ζ τ] in
theorem received?_eq_some (taken : received? peer = some message) :
    ∃ mid, onTransport Transport.receive peer = .ok (some message) mid := by
  unfold received? at taken
  cases ran : onTransport Transport.receive peer with
  | ok taken' mid =>
      rw [ran] at taken
      exact ⟨mid, congrArg (EStateM.Result.ok · mid) taken⟩
  | error stop mid =>
      rw [ran] at taken
      cases taken

/-- Asking to be notified of the next message moves no message. -/
theorem traced_rearm {rearmed : Except Error Unit} {mid : Moment (Rpc ζ) τ}
    (asked : Task.settle (onTransport Transport.rearm) mid = .ok rearmed peer') :
    Traced Move mid [] peer' := by
  have goes := goes_onTransport Transport.goes_rearm mid
  unfold Task.Goes at goes
  rcases goes.settled asked with ⟨_, -, events, trace, rfl, -⟩ | ⟨e, -, fails⟩
  · exact trace
  · obtain ⟨events, trace, rfl⟩ := fails e rfl
    exact trace

/-- The message is all that is taken. -/
theorem traced_taken {mid : Moment (Rpc ζ) τ}
    (taken : onTransport Transport.receive peer = .ok (some message) mid) :
    Traced Move peer [.received message] mid := by
  obtain ⟨events, trace, rfl, -⟩ := (goes_onTransport Transport.goes_receive peer).of_ok taken
  exact trace

/-- A request is served as one of its type. -/
theorem requested_of_treat {mid last : Moment (Rpc ζ) τ} {rearmed : Except Error Unit}
    (asked : ¬ MessageType.isResponse message.tag = true)
    (taken : onTransport Transport.receive peer = .ok (some message) mid)
    (treated : Task.settle (treat message) mid = .ok outcome last)
    (rearms : Task.settle (onTransport Transport.rearm) last = .ok rearmed peer')
    (alike : Alike peer.self peer'.self) : Requested ⟨message.tag⟩ peer peer' message outcome := by
  have same : SameBut peer.self mid.self := sameBut_onTransport taken
  have kept : mid.self.binding? ⟨message.tag⟩ = peer.self.binding? ⟨message.tag⟩ := by
    rw [show mid.self = _ from same]
    rfl
  cases bound : peer.self.binding? ⟨message.tag⟩ with
  | none =>
      cases (Task.settle_failed (treat_unbound asked (kept.trans bound))).symm.trans treated
      exact {
        unbound := fun _ => rfl
        bound := fun binding some => by cases bound.symm.trans some
        notStray := fun tag same => by cases same
        kept := alike }
  | some binding =>
      have goes := goes_serveRequest binding message ⟨message.tag⟩ mid
      unfold Task.Goes at goes
      rw [← treat_bound asked (kept.trans bound)] at goes
      have service : ∃ events, Traced Move mid events last ∧ Service ⟨message.tag⟩ (fun args =>
          (mid.self.handlers.get? ⟨message.tag⟩).isSome = true ∧
            Reads mid.self mid.scene.machine ⟨message.tag⟩ .far binding.args message args)
          outcome events := by
        rcases goes.settled treated with ⟨dispatch, rfl, ends⟩ | ⟨e, rfl, fails⟩
        · exact ends
        · exact fails e rfl
      obtain ⟨events, trace, service⟩ := service
      have later := trace.append (traced_rearm rearms)
      rw [List.append_nil] at later
      exact {
        unbound := fun none => by cases bound.symm.trans none
        bound := fun binding' some => by
          cases bound.symm.trans some
          exact ⟨mid, events, traced_taken taken, same, later, service⟩
        notStray := fun tag same => by
          rw [same] at service
          cases service
        kept := alike }

/-- A message is served as a request or dropped as a reply, by the top bit of its first word. -/
theorem sorts_onMessage (taken : received? peer = some message)
    (returned : Task.settle onMessage peer = .ok outcome peer') :
    (MessageType.isResponse message.tag = false ∧ Requested ⟨message.tag⟩ peer peer' message outcome) ∨
      (MessageType.isResponse message.tag = true ∧ Dropped peer peer' message outcome) := by
  have alike : Alike (settled peer.self (some message)) peer'.self := by
    have ends := ends_onMessage peer
    rw [taken] at ends
    rcases ends.settled returned with ⟨_, -, alike⟩ | ⟨_, -, alike⟩
    · exact alike
    · exact alike
  obtain ⟨mid, ran⟩ := received?_eq_some taken
  obtain ⟨last, rearmed, served, rearms⟩ := settle_onMessage returned
  have treated : Task.settle (treat message) mid = .ok outcome last := by
    unfold Task.settle at served ⊢
    rwa [serveOne_taken ran] at served
  by_cases isReply : MessageType.isResponse message.tag = true
  · obtain ⟨last', stray⟩ := treat_reply isReply mid
    cases (Task.settle_ok stray).symm.trans treated
    exact .inr ⟨isReply, rfl, alike.awaiting, alike.shapes⟩
  · rw [settled_request isReply] at alike
    exact .inl ⟨Bool.eq_false_of_not_eq_true isReply,
      requested_of_treat isReply ran treated rearms alike⟩

/-! ### From one end to the other -/

/-- A message as it arrives over a transport: filled up to the width, and over shared memory
without a capability. -/
def arrival (t : Transport) (message : Message) : Message :=
  match t with
  | .endpoint _ => message.letter.message
  | .slots chan => { words := SlotChannel.pad chan.payloadWords message.words }

/-- The first word arrives. -/
theorem tag_arrival {t : Transport} (wide : 1 ≤ t.width) (message : Message) :
    (arrival t message).tag = message.tag := by
  cases t with
  | endpoint ep => exact message.tag_letter
  | slots chan =>
      obtain ⟨width, more⟩ := Nat.exists_eq_add_of_le' (show 1 ≤ chan.payloadWords from wide)
      unfold arrival Message.tag SlotChannel.pad
      cases message.words with
      | nil => simp [more, List.replicate_succ]
      | cons word rest => simp [more]

/-- The party serves a message, which is what arrived of this one. -/
structure Meets (message : Message) (peer peer' : Moment (Rpc ζ) τ)
    (outcome : Except Error Dispatch) : Prop where
  taken : received? peer = some (arrival peer.self.transport message)
  returned : Task.settle onMessage peer = .ok outcome peer'

/-- However a message is taken at the other end, it is what it was sent as, but for the top bit of
the number of a type. -/
structure KeptApart (message : Message) (peer : Moment (Rpc ζ) τ) : Prop where
  /-- A request is served as one of its type exactly if the top bit of the type is clear, and
  dropped as a reply exactly if it is set. -/
  request : ∀ t : MessageType, message.tag = t.code → ∀ outcome peer',
    Meets message peer peer' outcome →
      (Requested t peer peer' (arrival peer.self.transport message) outcome ↔
        MessageType.isResponse t.code = false) ∧
      (Dropped peer peer' (arrival peer.self.transport message) outcome ↔
        MessageType.isResponse t.code = true)
  /-- A reply is dropped. -/
  reply : ∀ t : MessageType, message.tag = t.responseTag → ∀ outcome peer',
    Meets message peer peer' outcome →
      Dropped peer peer' (arrival peer.self.transport message) outcome
  /-- A call that returned accepted one message last of all. It was no request, unless of a type
  with the top bit, and if it was the reply to a type, then to that of the call or its twin. -/
  accepted : ∀ s args rets peer', call s args peer = .ok rets peer' → ∃ events,
    Traced Move peer events peer' ∧ Called s events ∧
      ((receivedIn events).getLast? = some (arrival peer.self.transport message) →
        (∀ t : MessageType, message.tag = t.code → MessageType.isResponse t.code = true) ∧
        ∀ t : MessageType, message.tag = t.responseTag → t = s ∨
          (t = s.twin ∧ MessageType.isResponse t.code ≠ MessageType.isResponse s.code))

theorem keptApart_of_wide (wide : 1 ≤ peer.self.transport.width) (message : Message) :
    KeptApart message peer where
  request := by
    intro t tagged outcome peer' meets
    have tag := tag_arrival wide message
    have sorted := sorts_onMessage meets.taken meets.returned
    rw [tag, tagged] at sorted
    rcases sorted with ⟨asked, requested⟩ | ⟨isReply, dropped⟩
    · refine ⟨⟨fun _ => asked, fun _ => requested⟩, ⟨fun dropped => ?_, fun isReply => ?_⟩⟩
      · exact absurd dropped.reported (requested.notStray _)
      · cases asked.symm.trans isReply
    · refine ⟨⟨fun requested => ?_, fun asked => ?_⟩, ⟨fun _ => isReply, fun _ => dropped⟩⟩
      · exact absurd dropped.reported (requested.notStray _)
      · cases asked.symm.trans isReply
  reply := by
    intro t tagged outcome peer' meets
    have tag := tag_arrival wide message
    rcases sorts_onMessage meets.taken meets.returned with ⟨asked, -⟩ | ⟨-, dropped⟩
    · rw [tag, tagged, t.isResponse_responseTag] at asked
      cases asked
    · exact dropped
  accepted := by
    intro s args rets peer' returned
    have goes := goes_call s args peer
    unfold Task.Goes at goes
    rw [returned] at goes
    obtain ⟨events, trace, called⟩ := goes
    refine ⟨events, trace, called, fun last => ?_⟩
    obtain ⟨others, reply, received, replies⟩ := called.accepted
    rw [received, List.getLast?_concat] at last
    have tagged : message.tag = s.responseTag := by
      rw [← replies, Option.some.inj last, tag_arrival wide]
    constructor
    · intro t named
      rw [← named, tagged]
      exact s.isResponse_responseTag
    · intro t named
      refine (MessageType.responseTag_eq_iff.mp (named.symm.trans tagged)).imp_right ?_
      rintro rfl
      refine ⟨rfl, ?_⟩
      rw [MessageType.isResponse_twin]
      cases MessageType.isResponse s.code <;> decide

/-- Whatever a party does, every message that it sent so far is a request of a call that it makes,
or asks for a page to be mapped, or replies to a request that it took; and wherever it arrives, in
whatever state the other end is and whatever calls it makes, it is taken for what it is, unless
the top bit of the number of a type stands in the way. -/
theorem kept_apart {terms : Terms σ} {start : Moment (Rpc η) σ} {stage : Stage η σ}
    {events : List Event} (course : Course terms (.free, start) events stage) {message : Message}
    (sent : message ∈ sentIn events) (peer : Moment (Rpc ζ) τ)
    (wide : 1 ≤ peer.self.transport.width) :
    Origin terms.calls (receivedIn events) message ∧ KeptApart message peer ∧
      ∀ s t : MessageType, s.responseTag = t.responseTag ↔ s = t ∨ s = t.twin :=
  ⟨(explained_of_course course).sent message sent, keptApart_of_wide wide message,
    fun _ _ => MessageType.responseTag_eq_iff⟩

/-! ### A request of either kind -/

omit [Handler ζ τ]

/-- A party that counts its calls sends the request of one. -/
def asker : Moment (Rpc Tally) Unit :=
  ⟨create (.endpoint { home := ⟨0⟩, peer := some ⟨1⟩ }),
    ⟨(Endpoint.createPair (Machine.create 1)).2, ()⟩, []⟩

/-- The request of a type without the top bit is served as one of its type. -/
theorem kept_apart_served : ∃ (asked : Stage Tally Unit) (served : Moment (Rpc Tally) Unit),
    Course ⟨fun t args => t = ⟨10⟩ ∧ args = [.word 7], fun _ _ => False, False⟩ (.free, asker)
      [.sent { words := [10, 7] }] asked ∧
    Task.settle onMessage { visited { words := [] } [] with scene := asked.2.scene } =
      .ok (.ok (.handled ⟨10⟩)) served ∧
    Requested ⟨10⟩ { visited { words := [] } [] with scene := asked.2.scene } served
      { words := [10, 7, 0, 0] } (.ok (.handled ⟨10⟩)) := by
  let message : Message := { words := [10, 7] }
  let ep : Endpoint := { home := ⟨0⟩, peer := some ⟨1⟩ }
  let m := (ep.send .standard message.letter asker.scene.machine).2
  let peer : Moment (Rpc Tally) Unit := { visited { words := [] } [] with scene := ⟨m, ()⟩ }
  have course : Course ⟨fun t args => t = ⟨10⟩ ∧ args = [.word 7], fun _ _ => False, False⟩
      (.free, asker) [.sent message] (.free, { asker with scene := ⟨m, ()⟩ }) :=
    .single (.deal (.send (.endpoint rfl) (.request rfl ⟨rfl, rfl⟩ rfl fun _ same => by cases same)))
  have ran : (Task.success? (onMessage peer)).map (·.1) = some (.handled ⟨10⟩) := by
    decide +kernel
  obtain ⟨⟨dispatch, served⟩, returned, rfl⟩ := Option.map_eq_some_iff.mp ran
  have returned := Task.settle_ok (Task.success?_eq_some returned)
  have taken : received? peer = some (arrival peer.self.transport message) := by decide +kernel
  obtain ⟨-, apart, -⟩ := kept_apart course List.mem_cons_self peer (by decide)
  obtain ⟨⟨-, requested⟩, -⟩ := apart.request ⟨10⟩ rfl _ served ⟨taken, returned⟩
  exact ⟨_, served, course, returned, requested (by decide)⟩

/-- A type with the top bit and its twin are registered at both ends, and a call of the type with
the bit is made. Its request is dropped at the other end as a reply; and a call of the twin, made
there meanwhile, takes it for its own reply and returns. -/
theorem top_bit_strays :
    ∃ (client server : Rpc Tally) (waiting dropped misled : Moment (Rpc Tally) Unit),
      (create (.endpoint { home := ⟨0⟩, peer := some ⟨1⟩ })).registerAll
        [⟨⟨0x800000000000000a⟩, [], []⟩, ⟨⟨10⟩, [], []⟩] = (.ok (), client) ∧
      (create (.endpoint { home := ⟨1⟩, peer := some ⟨0⟩ })).registerAll
        [⟨⟨0x800000000000000a⟩, [], []⟩, ⟨⟨10⟩, [], []⟩] = (.ok (), server) ∧
      call ⟨0x800000000000000a⟩ [] ⟨client, asker.scene, []⟩ =
        .error (.halted .stalled) waiting ∧
      onMessage ⟨server, waiting.scene, []⟩ =
        .ok (.strayResponse 0x800000000000000a) dropped ∧
      call ⟨10⟩ [] ⟨server, waiting.scene, []⟩ = .ok [] misled := by
  let enrol (home peer : Cap) : Rpc Tally :=
    ((create (.endpoint { home, peer := some peer })).registerAll
      [⟨⟨0x800000000000000a⟩, [], []⟩, ⟨⟨10⟩, [], []⟩]).2
  have ran : (do
      let (halt, waiting) ← Task.halted?
        (call ⟨0x800000000000000a⟩ [] ⟨enrol ⟨0⟩ ⟨1⟩, asker.scene, []⟩)
      let (dispatch, _) ← Task.success? (onMessage ⟨enrol ⟨1⟩ ⟨0⟩, waiting.scene, []⟩)
      let (rets, _) ← Task.success? (call ⟨10⟩ [] ⟨enrol ⟨1⟩ ⟨0⟩, waiting.scene, []⟩)
      return (halt, dispatch, rets)) = some (.stalled, .strayResponse 0x800000000000000a, []) := by
    decide +kernel
  simp only [Option.bind_eq_bind, Option.bind_eq_some_iff, Option.pure_def, Option.some.injEq,
    Prod.mk.injEq] at ran
  obtain ⟨⟨halt, waiting⟩, stalled, ⟨dispatch, dropped⟩, taken, ⟨rets, misled⟩, returned, rfl, rfl,
    rfl⟩ := ran
  exact ⟨_, _, waiting, dropped, misled, rfl, rfl, Task.halted?_eq_some stalled,
    Task.success?_eq_some taken, Task.success?_eq_some returned⟩

end Rpc

end Conduit

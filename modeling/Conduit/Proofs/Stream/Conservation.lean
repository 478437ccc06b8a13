/-
# No byte of a stream is lost, doubled, moved or made up

The operations of a party are made of single steps, between which the other party acts
whenever the operation waits. `perform_conserves` says that an operation keeps the
invariant of the two parties whatever the other one does meanwhile, as long as that is
made of steps of its own; an operation that is cut short by a wait leaves some of its
messages untransmitted. `stream_conserves` is the result for every run of the two
parties from a new channel of either kind.
-/

import Conduit.Proofs.Stream.Operations
import Mathlib.Logic.Relation

namespace Conduit

namespace Stream

section Operations

variable {σ : Type} {other : σ → Party} {rely : Scene σ → Scene σ → Prop}

/-- The invariant holds for this party and the other one. -/
def With (other : σ → Party) (p : Party) (scene : Scene σ) : Prop :=
  Conserving scene.machine p (other scene.others)

/-- The others' steps keep the invariant of the two parties. -/
def Stable (rely : Scene σ → Scene σ → Prop) (other : σ → Party) : Prop :=
  ∀ p scene scene', With other p scene → rely scene scene' → With other p scene'

/-- Every single step keeps the invariant of the two parties. -/
theorem Stable.upheld (stable : Stable rely other) {steps : Scene Party → Scene Party → Prop}
    (acts : ∀ {scene scene'}, steps scene scene' → Act scene scene') :
    Upheld steps rely (With other) where
  conserving conserving := ⟨_, conserving⟩
  step conserving step := conserving_act conserving (acts step)
  stable := stable _ _ _

variable (stable : Stable rely other)

include stable

/-- Where an operation ends, the invariant holds again and nothing is left to be put on
the way. Where it is cut short, the invariant holds with the messages that are left. -/
theorem perform_conserves {op : Op} (short : op.Short) {now : Moment Party σ}
    (idle : now.self.rest = []) (among : Task.Among rely (With other) now) :
    Task.Ends (Party.perform op now) (fun _ now => Task.Among rely (With other) now)
      fun stop now' => match stop with
        | .failed _ => Task.Among rely (With other) now'
        | .halted _ => ∃ left, left <:+ op.messages now.self.stream.transport.width ∧
            With other { now'.self with
              sent := now'.self.sent ++ op.strings, rest := left } now'.scene := by
  cases plays : op.part with
  | speaker =>
      refine (ends_speaking (stable.upheld Speaks.act) plays short idle among).mono ?_ ?_
      · exact fun _ now' ends => ends.1
      · rintro (e | h) now' ends
        · exact ends.1
        · exact ends
  | listener =>
      have upheld := (stable.upheld Listens.act).along (fun p => p.rest = [])
        fun idle listens => listens.rest_eq.trans idle
      have keeps := keeps_listening upheld plays now ⟨⟨among.here, idle⟩, among.lawful⟩
      have none : op.strings = [] ∧ ∀ width, op.messages width = [] := by
        cases op with
        | send data => cases plays
        | close => cases plays
        | _ => exact ⟨rfl, fun _ => rfl⟩
      refine keeps.mono (fun _ now' among => ⟨among.here.1, among.lawful⟩) ?_
      rintro (e | h) now' ⟨⟨here, idle'⟩, lawful⟩
      · exact ⟨here, lawful⟩
      · refine ⟨[], List.nil_suffix, ?_⟩
        have same : { now'.self with sent := now'.self.sent ++ op.strings, rest := [] } = now'.self := by
          rw [none.1, List.append_nil, ← idle']
        rw [same]
        exact here

end Operations

/-! ### Runs of the two parties -/

/-- What a party does on its own: a single step, or an operation that the other party
lets it wait in as often as it likes. -/
inductive Solo : Scene Party → Scene Party → Prop
  | act {scene scene' : Scene Party} (act : Act scene scene') : Solo scene scene'
  | perform {m m' : Machine} {p p' : Party} {op : Op} {waits : Nat} {turns : List (Turn Unit)}
      (short : op.Short) (idle : p.rest = [])
      (ended : outcome? (Party.perform op ⟨p, ⟨m, ()⟩, List.replicate waits nothing⟩) =
        some ⟨p', ⟨m', ()⟩, turns⟩) : Solo ⟨m, p⟩ ⟨m', p'⟩

/-- A turn in which the other party does whatever it does on its own. -/
def Lawful (turn : Turn Party) : Prop := Turn.Follows (Relation.ReflTransGen Solo) turn

/-- The turn in which the other party performs an operation, if it is in none and the
operation comes to an end without waiting. -/
def acting (op : Op) : Turn Party := fun scene =>
  if scene.others.rest.isEmpty then
    match outcome? (Party.perform op ⟨scene.others, ⟨scene.machine, ()⟩, []⟩) with
    | some now => .ok () ⟨now.scene.machine, now.self⟩
    | none => .ok () scene
  else .ok () scene

theorem lawful_acting {op : Op} (short : op.Short) : Lawful (acting op) := by
  rintro ⟨m, p⟩
  unfold Turn.after acting
  by_cases idle : p.rest.isEmpty = true
  · simp only [if_pos idle]
    cases ended : outcome? (Party.perform op ⟨p, ⟨m, ()⟩, []⟩) with
    | none => exact .refl
    | some now =>
        have ended : outcome? (Party.perform op ⟨p, ⟨m, ()⟩, List.replicate 0 nothing⟩) =
          some ⟨now.self, ⟨now.scene.machine, ()⟩, now.turns⟩ := ended
        exact .single (.perform short (List.isEmpty_iff.mp idle) ended)
  · simp only [if_neg idle]
    exact .refl

/-- Two parties of a stream, and the machine they share. -/
structure Pair where
  /-- The machine. -/
  machine : Machine
  /-- One party. -/
  left : Party
  /-- The other party. -/
  right : Party

namespace Pair

/-- The same, seen from the other side. -/
def swap (pair : Pair) : Pair := ⟨pair.machine, pair.right, pair.left⟩

/-- The left party does something on its own, or performs an operation while whose
waits the right one acts. -/
inductive Step : Pair → Pair → Prop
  | solo {m m' : Machine} {p p' q : Party} (solo : Solo ⟨m, p⟩ ⟨m', p'⟩) :
      Step ⟨m, p, q⟩ ⟨m', p', q⟩
  | perform {m m' : Machine} {p p' q q' : Party} {op : Op} {turns turns' : List (Turn Party)}
      (short : op.Short) (idle : p.rest = []) (lawful : ∀ turn ∈ turns, Lawful turn)
      (ended : outcome? (Party.perform op ⟨p, ⟨m, q⟩, turns⟩) = some ⟨p', ⟨m', q'⟩, turns'⟩) :
      Step ⟨m, p, q⟩ ⟨m', p', q'⟩

/-- The two parties act in any order. -/
def Runs : Pair → Pair → Prop :=
  Relation.ReflTransGen fun pair pair' => Step pair pair' ∨ Step pair.swap pair'.swap

/-- What the messages on their way to the right party say: their bytes, and how many
bytes of a byte string are still to come after them. -/
def onTheWay (pair : Pair) : List UInt8 × UInt64 :=
  decode pair.right.stream.bytesLeft (pair.right.stream.transport.waiting pair.machine)

/-- What the left party did not put on the way yet. -/
def untransmitted (pair : Pair) : List UInt8 := (decode pair.onTheWay.2 pair.left.rest).1

/-- The bytes that the right party handed out, then its ring, its parked bytes, the
bytes on the way and those that are not on the way yet, are what the left party sent. -/
def Exact (pair : Pair) : Prop :=
  pair.right.got ++ pair.right.stream.ring.toList ++ pair.right.stream.parked ++ pair.onTheWay.1 ++
    pair.untransmitted = pair.left.sent.flatten

/-- However the left party is stuck in an operation, some of the messages of the operation
are left, and nothing else is missing. -/
def ExactWithin (pair : Pair) : Prop :=
  ∀ (op : Op) (turns : List (Turn Party)) (h : Halt) (now : Moment Party Party),
    op.Short → pair.left.rest = [] → (∀ turn ∈ turns, Lawful turn) →
    Party.perform op ⟨pair.left, ⟨pair.machine, pair.right⟩, turns⟩ = .error (.halted h) now →
    ∃ left, left <:+ op.messages pair.left.stream.transport.width ∧
      let midway : Pair := ⟨now.scene.machine,
        { now.self with sent := now.self.sent ++ op.strings, rest := left }, now.scene.others⟩
      midway.Exact ∧ midway.swap.Exact

end Pair

/-- Two parties at the ends of a new channel of either kind, with rings of any length
that a ring may have. -/
inductive New : Pair → Prop
  | endpoints {m m' : Machine} {a b : Endpoint} {lengthA lengthB : Nat} {l r : Stream}
      (spared : ∀ cap op, m.Spares cap op)
      (created : Endpoint.createPair m = (.ok (a, b), m'))
      (left : Stream.create (.endpoint a) lengthA = .ok (.ok l))
      (right : Stream.create (.endpoint b) lengthB = .ok (.ok r)) :
      New ⟨m', { stream := l }, { stream := r }⟩
  | slots {m : Machine} {memory : Memory} {bytes slotBytes lengthA lengthB : Nat} {v : View}
      {a b : SlotChannel} {l r : Stream}
      (allocated : m.memory.allocate bytes = .ok (v, memory))
      (first : SlotChannel.overHalves v slotBytes true = .ok a)
      (second : SlotChannel.overHalves v slotBytes false = .ok b)
      (left : Stream.create (.slots a) lengthA = .ok (.ok l))
      (right : Stream.create (.slots b) lengthB = .ok (.ok r)) :
      New ⟨{ m with memory }, { stream := l }, { stream := r }⟩

/-- The invariant of the two parties. -/
def Pair.Conserving (pair : Pair) : Prop := Stream.Conserving pair.machine pair.left pair.right

namespace Pair

variable {pair pair' : Pair}

theorem Conserving.swap (conserving : pair.Conserving) : pair.swap.Conserving :=
  Stream.Conserving.symm conserving

theorem Conserving.exact (conserving : pair.Conserving) : pair.Exact := by
  obtain ⟨toQ, toP, linked, -, -, ⟨data, decoded, balance⟩, -⟩ := conserving
  rw [decode_append, Prod.mk.injEq] at decoded
  unfold Exact untransmitted onTheWay
  rw [linked.waiting_eq, ← balance, ← decoded.1, backlog]
  simp only [List.append_assoc]

end Pair

variable {m m' : Machine} {p p' q : Party}

theorem ended_conserves {σ : Type} {other : σ → Party} {rely : Scene σ → Scene σ → Prop}
    (stable : Stable rely other) {op : Op} (short : op.Short) {now now' : Moment Party σ}
    (idle : now.self.rest = []) (among : Task.Among rely (With other) now)
    (ended : outcome? (Party.perform op now) = some now') :
    With other now'.self now'.scene :=
  (stable.upheld Part.Steps.act).ended rfl short idle among ended

/-- What a party does on its own keeps the invariant. -/
theorem conserving_solo (conserving : Conserving m p q) (solo : Solo ⟨m, p⟩ ⟨m', p'⟩) :
    Conserving m' p' q := by
  cases solo with
  | act act => exact conserving_act conserving act
  | @perform _ _ _ _ op waits turns short idle ended =>
      have stable : Stable (fun scene scene' : Scene Unit => scene = scene') fun _ => q := by
        rintro p scene _ here rfl
        exact here
      have idly : ∀ turn ∈ List.replicate waits nothing,
          Turn.Follows (fun scene scene' : Scene Unit => scene = scene') turn := by
        intro turn mem scene
        rw [List.eq_of_mem_replicate mem]
        rfl
      have among : Task.Among _ (With fun _ => q)
        ⟨p, ⟨m, ()⟩, List.replicate waits nothing⟩ := ⟨conserving, idly⟩
      exact ended_conserves stable short idle among ended

/-- What the other party does on its own keeps the invariant. -/
theorem stable_solo : Stable (Relation.ReflTransGen Solo) id := by
  intro p scene scene' here steps
  induction steps with
  | refl => exact here
  | tail _ solo ih => exact (conserving_solo (Conserving.symm ih) solo).symm

namespace Pair

variable {pair pair' : Pair}

theorem Conserving.step (conserving : pair.Conserving) (step : Step pair pair') :
    pair'.Conserving := by
  cases step with
  | solo solo => exact conserving_solo conserving solo
  | @perform m _ p _ q _ op turns _ short idle lawful ended =>
      have among : Task.Among _ (With id) ⟨p, ⟨m, q⟩, turns⟩ := ⟨conserving, lawful⟩
      exact ended_conserves stable_solo short idle among ended

theorem Conserving.runs (conserving : pair.Conserving) (runs : Runs pair pair') :
    pair'.Conserving := by
  induction runs with
  | refl => exact conserving
  | tail _ step ih =>
      rcases step with left | right
      · exact ih.step left
      · exact (ih.swap.step right).swap

theorem Conserving.exactWithin (conserving : pair.Conserving) : pair.ExactWithin := by
  intro op turns h now short idle lawful stuck
  have among : Task.Among _ (With id) ⟨pair.left, ⟨pair.machine, pair.right⟩, turns⟩ :=
    ⟨conserving, lawful⟩
  have ends := perform_conserves stable_solo short idle among
  rw [stuck] at ends
  obtain ⟨left, suffix, midway⟩ := ends
  exact ⟨left, suffix, Conserving.exact midway, Conserving.exact (Stream.Conserving.symm midway)⟩

end Pair

/-- A new endpoint has an empty queue, and changes no other. -/
theorem endpointCreate_ok {ep : Endpoint} (created : Endpoint.create m = (.ok ep, m')) :
    ep.peer = none ∧ ep.home = ⟨m.kernel.nextSlot⟩ ∧ m'.kernel.nextSlot = m.kernel.nextSlot + 1 ∧
      m'.kernel.queues = m.kernel.queues.insert ep.home [] ∧ m'.faults = m.faults := by
  simp only [Endpoint.create, Machine.onKernel, Kernel.createEndpoint, Kernel.allocSlot] at created
  by_cases last : m.kernel.nextSlot = 0xffffffff
  · simp only [if_pos last, bind, Except.bind] at created
    cases created
  · simp only [if_neg last, bind, Except.bind] at created
    cases created
    exact ⟨rfl, rfl, rfl, rfl, rfl⟩

/-- The ends of a new channel are each other's peers, and their queues are empty. No plan is
touched. -/
theorem createPair_ok {a b : Endpoint} (created : Endpoint.createPair m = (.ok (a, b), m')) :
    a.peer = some b.home ∧ b.peer = some a.home ∧ a.home ≠ b.home ∧
      m'.kernel.queues.get? b.home = some [] ∧ m'.kernel.queues.get? a.home = some [] ∧
      m'.faults = m.faults := by
  unfold Endpoint.createPair at created
  cases first : Endpoint.create m with
  | mk answer m₁ =>
      cases answer with
      | error e => simp only [first, Prod.mk.injEq, reduceCtorEq, false_and] at created
      | ok a₀ =>
          cases second : Endpoint.create m₁ with
          | mk answer m₂ =>
              cases answer with
              | error e => simp only [first, second, Prod.mk.injEq, reduceCtorEq, false_and] at created
              | ok b₀ =>
                  simp only [first, second, Prod.mk.injEq, Except.ok.injEq] at created
                  obtain ⟨⟨rfl, rfl⟩, rfl⟩ := created
                  obtain ⟨-, homeA, slotA, queuesA, faultsA⟩ := endpointCreate_ok first
                  obtain ⟨-, homeB, slotB, queuesB, faultsB⟩ := endpointCreate_ok second
                  have apart : a₀.home ≠ b₀.home := by
                    rw [homeA, homeB, slotA]
                    intro same
                    have next := congrArg UInt32.toNat (Cap.mk.inj same)
                    rw [UInt32.toNat_add] at next
                    have bound := m.kernel.nextSlot.toNat_lt
                    change _ = (_ + 1) % 2 ^ 32 at next
                    omega
                  refine ⟨rfl, rfl, apart, ?_, ?_, faultsB.trans faultsA⟩
                  · rw [queuesB, Table.get?_insert, if_pos rfl]
                  · rw [queuesB, Table.get?_insert, if_neg apart.symm, queuesA, Table.get?_insert,
                      if_pos rfl]

theorem linked_createPair {a b : Endpoint} (spared : ∀ cap op, m.Spares cap op)
    (created : Endpoint.createPair m = (.ok (a, b), m')) :
    Linked m' (.endpoint a) (.endpoint b) [] [] := by
  obtain ⟨peerA, peerB, apart, atB, atA, faults⟩ := createPair_ok created
  have spares : ∀ cap op, m'.Spares cap op := fun cap op =>
    (Machine.spares_congr faults).mpr (spared cap op)
  exact .endpoints ⟨peerA, peerB, apart, atB, atA, fun _ mem => absurd mem List.not_mem_nil,
    fun _ mem => absurd mem List.not_mem_nil, spares _, spares _⟩

/-- A new stream holds nothing. -/
theorem create_ok {t : Transport} {length : Nat} {s : Stream}
    (created : Stream.create t length = .ok (.ok s)) :
    s.transport = t ∧ s.ring.Valid ∧ s.backlog = [] ∧ s.bytesLeft = 0 ∧ s.closed = false := by
  unfold Stream.create Ring.create at created
  by_cases short : length < 2
  · simp only [if_pos short, bind, Except.bind] at created
    cases created
  by_cases addressed : length < Ring.lengthLimit
  · simp only [if_neg short, if_pos addressed, bind, Except.bind] at created
    cases created
    have size : (Array.replicate length (0 : UInt8)).size = length := Array.size_replicate
    refine ⟨rfl, ⟨?_, ?_, ?_⟩, ?_, rfl, rfl⟩
    · simp only [size]
      omega
    · simp only [size]
      omega
    · simp only [size]
      omega
    · simp only [backlog, Ring.toList, Ring.size, Nat.zero_add, Nat.sub_zero, Nat.mod_self]
      rfl
  · simp only [if_neg short, if_neg addressed, bind, Except.bind] at created
    cases created

/-- Nothing was sent, and nothing is held or on the way. -/
theorem conserving_start {a b : Transport} {lengthA lengthB : Nat} {l r : Stream}
    (linked : Linked m a b [] []) (left : Stream.create a lengthA = .ok (.ok l))
    (right : Stream.create b lengthB = .ok (.ok r)) :
    Conserving m { stream := l } { stream := r } := by
  obtain ⟨transportA, validA, emptyA, leftA, -⟩ := create_ok left
  obtain ⟨transportB, validB, emptyB, leftB, -⟩ := create_ok right
  refine ⟨[], [], ?_, ⟨validA, ?_⟩, ⟨validB, ?_⟩, ⟨[], ?_, ?_⟩, ⟨[], ?_, ?_⟩⟩
  · simp only [transportA, transportB]
    exact linked
  · exact fun _ mem => absurd mem List.not_mem_nil
  · exact fun _ mem => absurd mem List.not_mem_nil
  · simp only [leftB]
    rfl
  · simp only [emptyB]
    rfl
  · simp only [leftA]
    rfl
  · simp only [emptyA]
    rfl

/-- The ends of a new channel are linked, and nothing is on the way. -/
theorem New.linked {pair : Pair} (new : New pair) :
    ∃ (a b : Transport) (lengthA lengthB : Nat) (l r : Stream), Linked pair.machine a b [] [] ∧
      Stream.create a lengthA = .ok (.ok l) ∧ Stream.create b lengthB = .ok (.ok r) ∧
      pair.left = { stream := l } ∧ pair.right = { stream := r } := by
  cases new with
  | endpoints spared created left right =>
      exact ⟨_, _, _, _, _, _, linked_createPair spared created, left, right, rfl, rfl⟩
  | slots allocated first second left right =>
      exact ⟨_, _, _, _, _, _, .slots (SlotChannel.joined_overHalves allocated first second),
        left, right, rfl, rfl⟩

theorem conserving_new {pair : Pair} (new : New pair) : pair.Conserving := by
  obtain ⟨a, b, lengthA, lengthB, l, r, linked, left, right, isLeft, isRight⟩ := new.linked
  unfold Pair.Conserving
  rw [isLeft, isRight]
  exact conserving_start linked left right

/-- Whatever two parties of a new stream do, over a capability channel or over shared
memory, in whatever order their steps come: in both directions what was handed out, then
what is held, then what is on the way, and then what is not on the way yet, is what was
sent, also in the middle of an operation. -/
theorem stream_conserves {start final : Pair} (new : New start) (runs : start.Runs final) :
    final.Exact ∧ final.swap.Exact ∧ final.ExactWithin ∧ final.swap.ExactWithin := by
  have conserving := (conserving_new new).runs runs
  exact ⟨conserving.exact, conserving.swap.exact, conserving.exactWithin,
    conserving.swap.exactWithin⟩

/-- Two parties at the ends of a new channel that queues one message. -/
def narrow : Pair where
  machine := (Endpoint.createPair (Machine.create 1)).2
  left.stream.transport := .endpoint { home := ⟨0⟩, peer := some ⟨1⟩ }
  left.stream.ring.storage := Array.replicate 16 0
  right.stream.transport := .endpoint { home := ⟨1⟩, peer := some ⟨0⟩ }
  right.stream.ring.storage := Array.replicate 16 0

theorem new_narrow : New narrow := by
  have left : Stream.create narrow.left.stream.transport 16 = .ok (.ok narrow.left.stream) := rfl
  have right : Stream.create narrow.right.stream.transport 16 = .ok (.ok narrow.right.stream) := rfl
  have spared : ∀ cap op, (Machine.create 1).Spares cap op := fun _ _ => rfl
  exact .endpoints spared rfl left right

/-- A byte string of two messages is sent while the other party takes the first one; the
second is on its way then. -/
theorem stream_conserves_narrow :
    ∃ final : Pair, New narrow ∧ narrow.Runs final ∧
      final.left.sent = [List.replicate 30 7] ∧ final.right.got = List.replicate 24 7 ∧
      final.Exact ∧ final.swap.Exact ∧ final.ExactWithin ∧ final.swap.ExactWithin := by
  have short : (Op.send (List.replicate 30 7)).Short := by
    change (List.replicate 30 (7 : UInt8)).length < Ring.lengthLimit
    decide
  have lawful : ∀ turn ∈ [acting (.receiveAvailable 40)], Lawful turn := fun turn mem =>
    List.mem_singleton.mp mem ▸ lawful_acting trivial
  have ran : (outcome? (Party.perform (.send (List.replicate 30 7))
      ⟨narrow.left, ⟨narrow.machine, narrow.right⟩, [acting (.receiveAvailable 40)]⟩)).map
        (fun now => (now.self.sent, now.scene.others.got)) =
      some ([List.replicate 30 7], List.replicate 24 7) := by decide +kernel
  obtain ⟨now, ended, same⟩ := Option.map_eq_some_iff.mp ran
  obtain ⟨sent, got⟩ := Prod.mk.inj same
  obtain ⟨p, ⟨m, q⟩, turns⟩ := now
  have runs : narrow.Runs ⟨m, p, q⟩ := .single (.inl (.perform short rfl lawful ended))
  exact ⟨_, new_narrow, runs, sent, got, stream_conserves new_narrow runs⟩

end Stream

end Conduit

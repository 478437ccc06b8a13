/-
# The two parties of a byte stream

A party is one end of a stream with its history: the byte strings that it sent, the
messages of the current one that it has not put on the way yet, and the bytes that it
received and handed out. `Conserving` is the invariant of the two parties: the channel
links them, and in each direction everything that was handed out, is held, is on the
way, or is still to be put there, read in this order, is what was sent. It is kept by
each single step of a party (`conserving_act`), which is why it does not matter how
the steps of the two are interleaved.
-/

import Conduit.Proofs.Stream.Backlog
import Conduit.Proofs.Stream.Linked
import Conduit.Stream.Receive

namespace Conduit

namespace Stream

/-- One end of a stream, and what it did. -/
structure Party where
  /-- The end. -/
  stream : Stream
  /-- The byte strings that it sent, the current one included. -/
  sent : List (List UInt8) := []
  /-- The messages of the current byte string that are not on the way yet. -/
  rest : List (List UInt64) := []
  /-- The bytes that it handed out. -/
  got : List UInt8 := []

/-- A single step of a party: it begins to send, or to close the stream, puts the next
message on the way, takes a message from the transport, or hands out bytes. -/
inductive Act : Scene Party → Scene Party → Prop
  | begin {m : Machine} {p : Party} {data : List UInt8} (isOpen : p.stream.closed = false)
      (idle : p.rest = []) (short : data.length < Ring.lengthLimit) :
      Act ⟨m, p⟩ ⟨m, { p with
        sent := p.sent ++ [data], rest := wireForm p.stream.transport.width data }⟩
  | hangUp {m : Machine} {p : Party} (isOpen : p.stream.closed = false) (idle : p.rest = []) :
      Act ⟨m, p⟩ ⟨m, { p with
        stream := { p.stream with closed := true }
        rest := [closeWords p.stream.transport.width] }⟩
  | transmit {m m' : Machine} {p : Party} {words : List UInt64} {rest : List (List UInt64)}
      {flags : SendFlags} {t : Transport} (next : p.rest = words :: rest)
      (offered : Transport.offer { words } flags ⟨p.stream.transport, ⟨m, ()⟩, []⟩ =
        .ok (some ()) ⟨t, ⟨m', ()⟩, []⟩) :
      Act ⟨m, p⟩ ⟨m', { p with stream := { p.stream with transport := t }, rest }⟩
  | pull {m m' : Machine} {p : Party} {fragment : Option Fragment} {s : Stream}
      (pulled : Stream.pull ⟨p.stream, ⟨m, ()⟩, []⟩ = .ok fragment ⟨s, ⟨m', ()⟩, []⟩) :
      Act ⟨m, p⟩ ⟨m', { p with stream := s }⟩
  | handOut {m : Machine} {p : Party} (limit : Nat) :
      Act ⟨m, p⟩ ⟨m, { p with
        stream := (p.stream.drain limit).2, got := p.got ++ (p.stream.drain limit).1 }⟩

/-- What `p` sent is what `q` handed out, what it holds, what is on the way, and what
is not on the way yet, in this order; a current byte string ends with the last of it. -/
def Balanced (p q : Party) (toQ : List (List UInt64)) : Prop :=
  ∃ data, decode q.stream.bytesLeft (toQ ++ p.rest) = (data, 0) ∧
    q.got ++ q.stream.backlog ++ data = p.sent.flatten

/-- The ring of a party is valid, and its messages fit its transport. -/
structure Fit (p : Party) : Prop where
  ring : p.stream.ring.Valid
  rest : ∀ words ∈ p.rest, words.length = p.stream.transport.width

/-- The parties are linked, and no byte is lost, doubled, moved or made up. -/
def Conserving (m : Machine) (p q : Party) : Prop :=
  ∃ toQ toP, Linked m p.stream.transport q.stream.transport toQ toP ∧ Fit p ∧ Fit q ∧
    Balanced p q toQ ∧ Balanced q p toP

theorem onTransport_ok {σ α : Type} {task : Task Transport σ α} {a : α} {s : Stream}
    {t : Transport} {scene scene' : Scene σ} {turns turns' : List (Turn σ)}
    (ran : task ⟨s.transport, scene, turns⟩ = .ok a ⟨t, scene', turns'⟩) :
    onTransport task ⟨s, scene, turns⟩ = .ok a ⟨{ s with transport := t }, scene', turns'⟩ := by
  simp only [onTransport, Task.within, ran]

/-- Where no message is on its way, none is pulled. -/
theorem pull_nil {m : Machine} {a : Transport} {s : Stream} {toA : List (List UInt64)}
    (linked : Linked m a s.transport [] toA) {σ : Type} (others : σ) (turns : List (Turn σ)) :
    Stream.pull ⟨s, ⟨m, others⟩, turns⟩ = .ok none ⟨s, ⟨m, others⟩, turns⟩ := by
  have waiting : onTransport Transport.canReceive ⟨s, ⟨m, others⟩, turns⟩ =
      .ok false ⟨s, ⟨m, others⟩, turns⟩ := onTransport_ok (linked.canReceive others turns)
  unfold Stream.pull
  rw [Task.bind_ok waiting]
  rfl

/-- The first message on its way is pulled and absorbed. -/
theorem pull_cons {m : Machine} {a : Transport} {s : Stream} {words : List UInt64}
    {rest toA : List (List UInt64)} (linked : Linked m a s.transport (words :: rest) toA) :
    ∃ t m', Linked m' a t rest toA ∧ t.backlogLimit m' = s.transport.backlogLimit m ∧
      ∀ (σ : Type) (others : σ) (turns : List (Turn σ)),
        Stream.pull ⟨s, ⟨m, others⟩, turns⟩ = .ok (some ({ s with transport := t }.absorb words).1)
          ⟨({ s with transport := t }.absorb words).2, ⟨m', others⟩, turns⟩ := by
  obtain ⟨t, m', linked', limit, received⟩ := linked.receive
  refine ⟨t, m', linked', limit, fun σ others turns => ?_⟩
  have waiting : onTransport Transport.canReceive ⟨s, ⟨m, others⟩, turns⟩ =
      .ok true ⟨s, ⟨m, others⟩, turns⟩ := onTransport_ok (linked.canReceive others turns)
  have taken : onTransport Transport.receive ⟨s, ⟨m, others⟩, turns⟩ =
      .ok (some { words }) ⟨{ s with transport := t }, ⟨m', others⟩, turns⟩ :=
    onTransport_ok (received σ others turns)
  unfold Stream.pull
  rw [Task.bind_ok waiting]
  exact (Task.bind_ok taken).trans rfl

variable {m m' : Machine} {p p' q : Party}

theorem Conserving.symm (conserving : Conserving m p q) : Conserving m q p := by
  obtain ⟨toQ, toP, linked, fitP, fitQ, forth, back⟩ := conserving
  exact ⟨toP, toQ, linked.symm, fitQ, fitP, back, forth⟩

namespace Conserving

/-- Beginning to send adds the byte string to what was sent and to what is to be sent. -/
theorem begin (conserving : Conserving m p q) (idle : p.rest = []) {data : List UInt8}
    (short : data.length < Ring.lengthLimit) :
    Conserving m { p with
      sent := p.sent ++ [data], rest := wireForm p.stream.transport.width data } q := by
  obtain ⟨toQ, toP, linked, fitP, fitQ, ⟨before, decoded, balance⟩, back⟩ := conserving
  have wide := linked.one_le_width
  refine ⟨toQ, toP, linked, ⟨fitP.ring, fun words mem => length_of_mem_wireForm mem wide⟩, fitQ,
    ⟨before ++ data, ?_, ?_⟩, back⟩
  · rw [idle, List.append_nil] at decoded
    rw [decode_append, decoded, decode_wireForm wide short]
  · rw [← List.append_assoc, balance, List.flatten_append, List.flatten_singleton]

/-- The announcement of the end adds nothing to what was sent. -/
theorem hangUp (conserving : Conserving m p q) (idle : p.rest = []) :
    Conserving m { p with
      stream := { p.stream with closed := true }
      rest := [closeWords p.stream.transport.width] } q := by
  obtain ⟨toQ, toP, linked, fitP, fitQ, ⟨data, decoded, balance⟩, back⟩ := conserving
  refine ⟨toQ, toP, linked, ⟨fitP.ring, ?_⟩, fitQ, ⟨data, ?_, balance⟩, back⟩
  · intro words mem
    rw [List.mem_singleton.mp mem]
    exact length_closeWords linked.one_le_width
  · rw [idle, List.append_nil] at decoded
    rw [decode_append, decoded, decode_closeWords, List.append_nil]

/-- A message that is put on the way is still read in its place. -/
theorem transmit {words : List UInt64} {rest : List (List UInt64)}
    (conserving : Conserving m { p with rest := words :: rest } q) (flags : SendFlags) :
    (∀ (σ : Type) (others : σ) (turns : List (Turn σ)),
      Transport.offer { words } flags ⟨p.stream.transport, ⟨m, others⟩, turns⟩ =
        .ok none ⟨p.stream.transport, ⟨m, others⟩, turns⟩) ∨
    ∃ t m', Conserving m' { p with stream := { p.stream with transport := t }, rest } q ∧
      ∀ (σ : Type) (others : σ) (turns : List (Turn σ)),
        Transport.offer { words } flags ⟨p.stream.transport, ⟨m, others⟩, turns⟩ =
          .ok (some ()) ⟨t, ⟨m', others⟩, turns⟩ := by
  obtain ⟨toQ, toP, linked, fitP, fitQ, ⟨data, decoded, balance⟩, back⟩ := conserving
  rcases linked.offer (fitP.rest words List.mem_cons_self) flags with
    ⟨-, refused⟩ | ⟨t, m', linked', -, -, sent⟩
  · exact .inl refused
  · refine .inr ⟨t, m', ⟨toQ ++ [words], toP, linked', ⟨fitP.ring, ?_⟩, fitQ,
      ⟨data, ?_, balance⟩, back⟩, sent⟩
    · intro w mem
      have fits := fitP.rest w (List.mem_cons_of_mem _ mem)
      rw [fits]
      exact linked.width_eq.trans linked'.width_eq.symm
    · rw [List.append_assoc, List.singleton_append]
      exact decoded

/-- A message that is taken from the transport is held from then on. -/
theorem pull (conserving : Conserving m p q) :
    ∃ fragment s m', Conserving m' { p with stream := s } q ∧
      ∀ (σ : Type) (others : σ) (turns : List (Turn σ)),
        Stream.pull ⟨p.stream, ⟨m, others⟩, turns⟩ = .ok fragment ⟨s, ⟨m', others⟩, turns⟩ := by
  obtain ⟨toQ, toP, linked, fitP, fitQ, forth, data, decoded, balance⟩ := conserving
  cases toP with
  | nil =>
      refine ⟨none, p.stream, m, ⟨toQ, [], linked, fitP, fitQ, forth, data, decoded, balance⟩, ?_⟩
      exact fun σ others turns => pull_nil linked.symm others turns
  | cons words toP =>
      obtain ⟨t, m', linked', -, pulled⟩ := pull_cons linked.symm
      let s : Stream := { p.stream with transport := t }
      have transport : (s.absorb words).2.transport = t := transport_absorb words
      refine ⟨some (s.absorb words).1, (s.absorb words).2, m', ⟨toQ, toP, ?_, ⟨?_, ?_⟩, fitQ,
        forth, ?_⟩, pulled⟩
      · rw [transport]
        exact linked'.symm
      · exact valid_absorb (s := s) fitP.ring words
      · intro w mem
        rw [transport, fitP.rest w mem]
        exact linked.width_eq.trans linked'.width_eq
      · simp only [List.cons_append, decode, Prod.mk.injEq] at decoded
        refine ⟨_, Prod.ext rfl ?_, ?_⟩
        · rw [bytesLeft_absorb]
          exact decoded.2
        · rw [backlog_absorb (s := s) fitP.ring, bytesLeft_absorb, ← balance, ← decoded.1]
          simp only [List.append_assoc]
          rfl

/-- Bytes that are handed out are those that were held longest. -/
theorem handOut (conserving : Conserving m p q) (limit : Nat) :
    Conserving m { p with
      stream := (p.stream.drain limit).2, got := p.got ++ (p.stream.drain limit).1 } q := by
  obtain ⟨toQ, toP, linked, fitP, fitQ, forth, data, decoded, balance⟩ := conserving
  obtain ⟨left, transport, -⟩ := drainWithin_keeps (limit + 1) limit p.stream
  have held := backlog_drainWithin fitP.ring (limit + 1) limit
  have after : (p.stream.drain limit).2.transport = p.stream.transport := transport
  refine ⟨toQ, toP, ?_, ⟨valid_drainWithin fitP.ring _ _, ?_⟩, fitQ, forth, data, ?_, ?_⟩
  · rw [after]
    exact linked
  · rw [after]
    exact fitP.rest
  · change decode (drainWithin (limit + 1) limit p.stream).2.bytesLeft _ = _
    rw [left]
    exact decoded
  · rw [← balance, held]
    simp only [List.append_assoc]
    rfl

end Conserving

/-- Each step of a party keeps the invariant. -/
theorem conserving_act (conserving : Conserving m p q) (act : Act ⟨m, p⟩ ⟨m', p'⟩) :
    Conserving m' p' q := by
  cases act with
  | begin _ idle short => exact conserving.begin idle short
  | hangUp _ idle => exact conserving.hangUp idle
  | @transmit _ _ _ words rest flags t next offered =>
      have whole : { p with rest := words :: rest } = p := by rw [← next]
      rw [← whole] at conserving
      rcases conserving.transmit flags with refused | ⟨t', m'', conserving', sent⟩
      · rw [refused] at offered
        cases offered
      · rw [sent] at offered
        cases offered
        exact conserving'
  | pull pulled =>
      obtain ⟨fragment, s, m'', conserving', ran⟩ := conserving.pull
      rw [ran] at pulled
      cases pulled
      exact conserving'
  | handOut limit => exact conserving.handOut limit

end Stream

end Conduit

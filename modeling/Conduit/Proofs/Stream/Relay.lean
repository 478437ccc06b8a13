/-
# One party speaks, the other listens

`Relaying m p q read` is the invariant of a stream on which only `p` sends: `q` has read
the messages `read`, those that wait for it come next, then those that `p` has yet to put
on the way, and together they are all that `p` says. So what `q` holds and handed out is
what `read` says, and `q` sees the stream closed exactly if `read` says so. Each single
step of either party keeps it (`Relaying.speaks`, `Relaying.listens`), and so does
whatever a party does on its own, or while the other one waits (`does_related`,
`Step.related`). A party never forgets what it sent, handed out, or saw closed
(`Party.Since`).
-/

import Conduit.Proofs.Stream.Conservation
import Conduit.Proofs.Stream.Transcript

namespace Conduit

namespace Stream

/-- How many of the byte strings that a party sent are on their way with all their
messages, or arrived. -/
def Party.transmitted (p : Party) : Nat :=
  if p.rest = [] ∨ p.stream.closed then p.sent.length else p.sent.length - 1

/-- The messages that wait for a party. -/
def Party.waiting (p : Party) (m : Machine) : List (List UInt64) := p.stream.transport.waiting m

/-- All that a party has said, or has begun to say. -/
def Party.transcript (p : Party) : List (List UInt64) :=
  Stream.transcript p.stream.transport.width p.sent p.stream.closed

/-- What `p` says is what `q` has read, what waits for it, and what is not on the way yet,
in this order; and `q` is where it should be after what it has read. -/
structure Relaying (m : Machine) (p q : Party) (read : List (List UInt64)) : Prop where
  conserving : Conserving m p q
  short : ∀ data ∈ p.sent, data.length < Ring.lengthLimit
  room : (q.waiting m).length ≤ q.stream.transport.backlogLimit m
  said : read ++ (q.waiting m ++ p.rest) = p.transcript
  held : decode 0 read = (q.got ++ q.stream.backlog, q.stream.bytesLeft)
  ended : closes 0 read = q.stream.closed
  reached : (p.sent.take p.transmitted).flatMap (wireForm p.stream.transport.width) <+:
    read ++ q.waiting m

variable {m m' : Machine} {p p' q q' : Party} {read : List (List UInt64)}

namespace Party

theorem transcript_open (isOpen : p.stream.closed = false) :
    p.transcript = p.sent.flatMap (wireForm p.stream.transport.width) := by
  rw [transcript, isOpen]
  exact List.append_nil _

theorem transmitted_idle (idle : p.rest = []) : p.transmitted = p.sent.length := if_pos (.inl idle)

theorem transmitted_closed (closed : p.stream.closed = true) : p.transmitted = p.sent.length :=
  if_pos (.inr closed)

/-- The last byte string is not on its way with all its messages. -/
theorem transmitted_busy (isOpen : p.stream.closed = false) (busy : p.rest ≠ []) :
    p.transmitted = p.sent.length - 1 := by
  refine if_neg fun quiet => ?_
  rcases quiet with idle | closed
  · exact busy idle
  · cases isOpen.symm.trans closed

end Party

namespace Relaying

theorem linked (relaying : Relaying m p q read) :
    ∃ toP, Linked m p.stream.transport q.stream.transport (q.waiting m) toP := by
  obtain ⟨toQ, toP, linked, -⟩ := relaying.conserving
  refine ⟨toP, ?_⟩
  rw [Party.waiting, linked.waiting_eq]
  exact linked

theorem valid (relaying : Relaying m p q read) : q.stream.ring.Valid := by
  obtain ⟨-, -, -, -, fitQ, -⟩ := relaying.conserving
  exact fitQ.ring

theorem wide (relaying : Relaying m p q read) : 1 ≤ p.stream.transport.width := by
  obtain ⟨toP, linked⟩ := relaying.linked
  exact linked.one_le_width

/-! ### What the listener knows -/

/-- What was handed out and is held is a part of what was sent. -/
theorem delivered (relaying : Relaying m p q read) :
    q.got ++ q.stream.backlog <+: p.sent.flatten := by
  obtain ⟨-, -, -, -, -, ⟨data, -, balance⟩, -⟩ := relaying.conserving
  exact ⟨data, balance⟩

/-- Where nothing is to come of a byte string, what was handed out and is held is the
byte strings that have begun. -/
theorem strings (relaying : Relaying m p q read) (between : q.stream.bytesLeft = 0) :
    starts 0 read ≤ p.sent.length ∧
      q.got ++ q.stream.backlog = (p.sent.take (starts 0 read)).flatten := by
  have held := relaying.held
  rw [between] at held
  cases close : closes 0 read with
  | true =>
      obtain ⟨-, -, decoded, count⟩ :=
        eq_transcript relaying.wide relaying.short relaying.said close
      rw [held] at decoded
      rw [count, List.take_length]
      exact ⟨Nat.le_refl _, congrArg Prod.fst decoded⟩
  | false =>
      obtain ⟨count, same⟩ := eq_strings relaying.wide relaying.short relaying.said
        (congrArg Prod.snd held) close
      refine ⟨count, ?_⟩
      obtain ⟨decoded, -⟩ := decode_strings (p.sent.take (starts 0 read)) relaying.wide
        fun data mem => relaying.short data (List.mem_of_mem_take mem)
      rw [← same, held] at decoded
      exact congrArg Prod.fst decoded

/-- The listener sees the end only when it has everything that was sent. -/
theorem complete (relaying : Relaying m p q read) (closed : q.stream.closed = true) :
    p.stream.closed = true ∧ p.rest = [] ∧ q.waiting m = [] ∧
      q.got ++ q.stream.backlog = p.sent.flatten ∧ q.stream.bytesLeft = 0 ∧
      starts 0 read = p.sent.length := by
  obtain ⟨closed, later, decoded, count⟩ := eq_transcript relaying.wide relaying.short
    relaying.said (relaying.ended.trans closed)
  obtain ⟨waiting, rest⟩ := List.append_eq_nil_iff.mp later
  obtain ⟨held, between⟩ := Prod.mk.inj (relaying.held.symm.trans decoded)
  exact ⟨closed, rest, waiting, held, between, count⟩

/-- Where all that was said was read, the listener knows whether that is all. -/
theorem closed_eq (relaying : Relaying m p q read) (waiting : q.waiting m = [])
    (idle : p.rest = []) : q.stream.closed = p.stream.closed := by
  have said := relaying.said
  rw [waiting, idle, List.append_nil, List.append_nil] at said
  rw [← relaying.ended, said]
  exact closes_transcript relaying.wide relaying.short

/-- Where no message waits, the listener has read the beginning of each byte string that is
wholly on its way; of the last of them it has read all. -/
theorem transmitted_le (relaying : Relaying m p q read) (waiting : q.waiting m = [])
    (isOpen : q.stream.closed = false) : p.transmitted ≤ starts 0 read ∧
      (starts 0 read = p.transmitted → q.stream.bytesLeft = 0) := by
  obtain ⟨further, split⟩ := relaying.reached
  rw [waiting, List.append_nil] at split
  obtain ⟨strings, count, -⟩ := decode_strings (p.sent.take p.transmitted) relaying.wide
    fun data mem => relaying.short data (List.mem_of_mem_take mem)
  have all : (p.sent.take p.transmitted).length = p.transmitted := by
    rw [List.length_take, Party.transmitted]
    split
    · exact Nat.min_self _
    · exact Nat.min_eq_left (Nat.sub_le _ _)
  have close := relaying.ended.trans isOpen
  have between : (decode 0 read).2 = q.stream.bytesLeft := congrArg Prod.snd relaying.held
  rw [← split, closes_append, strings, Bool.or_eq_false_iff] at close
  rw [← split, decode_append, strings] at between
  rw [← split, starts_append, strings, count, all]
  refine ⟨Nat.le_add_right _ _, fun same => ?_⟩
  change p.transmitted + starts 0 further = p.transmitted at same
  have none : further = [] := eq_nil_of_starts (Nat.add_eq_left.mp same) close.2
  rw [← between, none]
  rfl

/-! ### Single steps -/

/-- Between two byte strings all that was said is on the way. -/
theorem said_open (relaying : Relaying m p q read) (isOpen : p.stream.closed = false)
    (idle : p.rest = []) :
    read ++ q.waiting m = p.sent.flatMap (wireForm p.stream.transport.width) := by
  rw [← Party.transcript_open isOpen, ← relaying.said, idle, List.append_nil]

theorem begins (relaying : Relaying m p q read) {data : List UInt8}
    (isOpen : p.stream.closed = false) (idle : p.rest = [])
    (short : data.length < Ring.lengthLimit) :
    Relaying m { p with
      sent := p.sent ++ [data], rest := wireForm p.stream.transport.width data } q read := by
  have said := relaying.said_open isOpen idle
  have step : Speaks ⟨m, p⟩ ⟨m, { p with
      sent := p.sent ++ [data], rest := wireForm p.stream.transport.width data }⟩ :=
    .begin isOpen idle short
  refine ⟨conserving_act relaying.conserving step.act, ?_, relaying.room, ?_, relaying.held,
    relaying.ended, ?_⟩
  · intro string mem
    rcases List.mem_append.mp mem with old | new
    · exact relaying.short string old
    · rw [List.mem_singleton.mp new]
      exact short
  · rw [← List.append_assoc, said]
    rw [Party.transcript_open]
    · rw [List.flatMap_append, List.flatMap_singleton]
    · exact isOpen
  · have count : ({ p with
        sent := p.sent ++ [data]
        rest := wireForm p.stream.transport.width data } : Party).transmitted = p.sent.length := by
      rw [Party.transmitted_busy]
      · rw [List.length_append, List.length_singleton, Nat.add_sub_cancel]
      · exact isOpen
      · exact wireForm_ne_nil _ data
    rw [count, List.take_left]
    exact ⟨[], by rw [List.append_nil, said]⟩

theorem hangsUp (relaying : Relaying m p q read) (isOpen : p.stream.closed = false)
    (idle : p.rest = []) : Relaying m { p with
      stream := { p.stream with closed := true }
      rest := [closeWords p.stream.transport.width] } q read := by
  have step : Speaks ⟨m, p⟩ ⟨m, { p with
      stream := { p.stream with closed := true }
      rest := [closeWords p.stream.transport.width] }⟩ := .hangUp isOpen idle
  refine ⟨conserving_act relaying.conserving step.act, relaying.short, relaying.room, ?_,
    relaying.held, relaying.ended, ?_⟩
  · rw [← List.append_assoc, relaying.said_open isOpen idle]
    rfl
  · have reached := relaying.reached
    rw [Party.transmitted_idle idle] at reached
    exact reached

theorem transmits (relaying : Relaying m p q read) {words : List UInt64} {rest : List (List UInt64)}
    {flags : SendFlags} {t : Transport} (next : p.rest = words :: rest)
    (offered : Transport.offer { words } flags ⟨p.stream.transport, ⟨m, ()⟩, []⟩ =
      .ok (some ()) ⟨t, ⟨m', ()⟩, []⟩) :
    Relaying m' { p with stream := { p.stream with transport := t }, rest } q read := by
  have conserving := conserving_act relaying.conserving (Speaks.transmit next offered).act
  obtain ⟨-, -, -, fitP, -⟩ := relaying.conserving
  obtain ⟨toP, linked⟩ := relaying.linked
  have fits := fitP.rest words (next ▸ List.mem_cons_self)
  rcases linked.offer fits flags with ⟨-, refused⟩ | ⟨t', m'', linked', space, limit, sent⟩
  · rw [refused] at offered
    cases offered
  rw [sent] at offered
  cases offered
  have waiting : q.waiting m' = q.waiting m ++ [words] := linked'.waiting_eq
  have width : t.width = p.stream.transport.width := linked'.width_eq.trans linked.width_eq.symm
  have said : read ++ (q.waiting m' ++ rest) = p.transcript := by
    rw [← relaying.said, waiting, next, List.append_assoc, List.singleton_append]
  refine ⟨conserving, relaying.short, ?_, ?_, relaying.held, relaying.ended, ?_⟩
  · rw [waiting, List.length_append, List.length_singleton, limit]
    exact space
  · rw [said, Party.transcript, Party.transcript, width]
  · change (p.sent.take (Party.transmitted _)).flatMap (wireForm t.width) <+: _
    rw [width]
    by_cases last : rest = [] ∧ p.stream.closed = false
    · -- The byte string is complete: all that was said is on the way now.
      obtain ⟨rfl, isOpen⟩ := last
      rw [List.append_nil, Party.transcript_open isOpen] at said
      rw [Party.transmitted_idle rfl, List.take_length]
      exact ⟨[], by rw [List.append_nil, said]⟩
    · have count :
          ({ p with stream := { p.stream with transport := t }, rest } : Party).transmitted =
            p.transmitted := by
        cases closed : p.stream.closed with
        | true =>
            rw [Party.transmitted_closed, Party.transmitted_closed closed]
            exact closed
        | false =>
            rw [Party.transmitted_busy, Party.transmitted_busy closed (by simp [next])]
            · exact closed
            · exact fun none => last ⟨none, closed⟩
      rw [count, waiting]
      exact relaying.reached.trans ⟨[words], by rw [List.append_assoc]⟩

/-- Each step of the speaker keeps the invariant. -/
theorem speaks (relaying : Relaying m p q read) (step : Speaks ⟨m, p⟩ ⟨m', p'⟩) :
    Relaying m' p' q read := by
  cases step with
  | begin isOpen idle short => exact relaying.begins isOpen idle short
  | hangUp isOpen idle => exact relaying.hangsUp isOpen idle
  | transmit next offered => exact relaying.transmits next offered

/-- A message that waits is pulled, or there is none. -/
theorem pull (relaying : Relaying m p q read) :
    (q.waiting m = [] ∧ ∀ (σ : Type) (others : σ) (turns : List (Turn σ)),
      Stream.pull ⟨q.stream, ⟨m, others⟩, turns⟩ = .ok none ⟨q.stream, ⟨m, others⟩, turns⟩) ∨
    ∃ words t m', let s : Stream := { q.stream with transport := t }
      Relaying m' p { q with stream := (s.absorb words).2 } (read ++ [words]) ∧
        q.waiting m = words :: (s.absorb words).2.transport.waiting m' ∧
        ∀ (σ : Type) (others : σ) (turns : List (Turn σ)),
          Stream.pull ⟨q.stream, ⟨m, others⟩, turns⟩ =
            .ok (some (s.absorb words).1) ⟨(s.absorb words).2, ⟨m', others⟩, turns⟩ := by
  obtain ⟨toP, linked⟩ := relaying.linked
  cases waiting : q.waiting m with
  | nil =>
      rw [waiting] at linked
      exact .inl ⟨rfl, fun σ others turns => pull_nil linked others turns⟩
  | cons words further =>
      rw [waiting] at linked
      obtain ⟨t, m', linked', limit, pulled⟩ := pull_cons linked
      let s : Stream := { q.stream with transport := t }
      have transport : (s.absorb words).2.transport = t := transport_absorb words
      have conserving := (conserving_act relaying.conserving.symm
        (.pull (p := q) (pulled Unit () []))).symm
      have left : t.waiting m' = further := linked'.waiting_eq
      have ended := relaying.ended
      have between : (decode 0 read).2 = q.stream.bytesLeft := congrArg Prod.snd relaying.held
      have scanned : decode (decode 0 read).2 [words] =
          ((scan q.stream.bytesLeft words).1, (scan q.stream.bytesLeft words).2) := by
        rw [between]
        simp only [decode, List.append_nil]
      refine .inr ⟨words, t, m', ⟨conserving, relaying.short, ?_, ?_, ?_, ?_, ?_⟩, ?_, pulled⟩
      · have room := relaying.room
        rw [waiting, List.length_cons] at room
        change ((s.absorb words).2.transport.waiting m').length ≤
          (s.absorb words).2.transport.backlogLimit m'
        rw [transport, left, limit]
        exact Nat.le_of_succ_le room
      · change read ++ [words] ++ ((s.absorb words).2.transport.waiting m' ++ p.rest) = _
        rw [← relaying.said, waiting, transport, left, List.append_assoc, List.singleton_append,
          List.cons_append]
      · rw [decode_append, scanned, relaying.held, bytesLeft_absorb,
          backlog_absorb (s := s) relaying.valid, List.append_assoc]
        rfl
      · rw [closes_append, ended, closed_absorb, between, closes, closes, Bool.or_false, isClose]
      · have same : read ++ [words] ++ further = read ++ (words :: further) := by
          rw [List.append_assoc, List.singleton_append]
        change _ <+: read ++ [words] ++ (s.absorb words).2.transport.waiting m'
        rw [transport, left, same, ← waiting]
        exact relaying.reached
      · rw [transport, left]

/-- Handing out bytes keeps the invariant. -/
theorem handOut (relaying : Relaying m p q read) (limit : Nat) :
    Relaying m p { q with
      stream := (q.stream.drain limit).2, got := q.got ++ (q.stream.drain limit).1 } read := by
  obtain ⟨left, transport, closed⟩ := drainWithin_keeps (limit + 1) limit q.stream
  have conserving := (relaying.conserving.symm.handOut limit).symm
  have waiting : (q.stream.drain limit).2.transport = q.stream.transport := transport
  have held := backlog_drainWithin relaying.valid (limit + 1) limit
  refine ⟨conserving, relaying.short, ?_, ?_, ?_, ?_, ?_⟩
  · simp only [Party.waiting, waiting]
    exact relaying.room
  · simp only [Party.waiting, waiting]
    exact relaying.said
  · rw [relaying.held, held, List.append_assoc]
    exact congrArg _ left.symm
  · exact relaying.ended.trans closed.symm
  · simp only [Party.waiting, waiting]
    exact relaying.reached

/-- Each step of the listener keeps the invariant, and may read a message. -/
theorem listens (relaying : Relaying m p q read) (step : Listens ⟨m, q⟩ ⟨m', q'⟩) :
    ∃ read', read <+: read' ∧ Relaying m' p q' read' := by
  cases step with
  | @pull _ _ _ fragment s pulled =>
      rcases relaying.pull with ⟨-, none⟩ | ⟨words, t, m'', relaying', -, some⟩
      · rw [none] at pulled
        cases pulled
        exact ⟨read, List.prefix_refl _, relaying⟩
      · rw [some] at pulled
        cases pulled
        exact ⟨_, List.prefix_append _ _, relaying'⟩
  | handOut limit => exact ⟨read, List.prefix_refl _, relaying.handOut limit⟩

end Relaying

end Stream

end Conduit

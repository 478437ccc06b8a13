/-
# Operations are made of single steps

An operation of a party consists of single steps, and of waits in which the others act.
So whatever the single steps keep, and the others too, holds again when the operation
ends: `ends_speaking` for the operations that send, `keeps_listening` for those that
receive. The condition must imply that the channel is in order, as it does if it includes
the invariant of the two parties, since a step that finds the channel broken does
something else than a step.

An operation that is cut short by a wait leaves some of its messages untransmitted.
-/

import Conduit.Proofs.Stream.Parties

namespace Conduit

namespace Stream

/-- What a party may be asked to do. -/
inductive Op where
  | send (data : List UInt8)
  | close
  | receiveAvailable (length : Nat)
  | receive (length : Nat)
  | receiveAll (length : Nat)
  | receiveMessage (length : Nat)

/-- A byte string that is sent is no longer than a byte string can be. -/
def Op.Short : Op → Prop
  | send data => data.length < Ring.lengthLimit
  | close | receiveAvailable _ | receive _ | receiveAll _ | receiveMessage _ => True

/-- The two parts that a party may take. -/
inductive Part where
  /-- It sends, and may close the stream. -/
  | speaker
  /-- It receives. -/
  | listener
  deriving DecidableEq

/-- The part of the other party. -/
def Part.other : Part → Part
  | speaker => listener
  | listener => speaker

/-- The part to which an operation belongs. -/
def Op.part : Op → Part
  | send _ | close => .speaker
  | receiveAvailable _ | receive _ | receiveAll _ | receiveMessage _ => .listener

/-- The byte strings that an operation sends. -/
def Op.strings : Op → List (List UInt8)
  | send data => [data]
  | close | receiveAvailable _ | receive _ | receiveAll _ | receiveMessage _ => []

/-- The messages that an operation puts on the way. -/
def Op.messages (width : Nat) : Op → List (List UInt64)
  | send data => wireForm width data
  | close => [closeWords width]
  | receiveAvailable _ | receive _ | receiveAll _ | receiveMessage _ => []

namespace Party

variable {σ α : Type}

/-- Runs a task that receives into a new buffer; what reached the buffer is handed out. -/
def reading (task : Task Reader σ α) : Task Party σ Unit := do
  let _ ← Task.within (fun p => { stream := p.stream })
    (fun r p => { p with stream := r.stream, got := p.got ++ r.filled }) task

/-- Runs a task of the stream. -/
def onStream (task : Task Stream σ α) : Task Party σ α :=
  Task.within Party.stream (fun stream p => { p with stream }) task

/-- Performs an operation, and notes what was sent by it. -/
def perform : Op → Task Party σ Unit
  | .send data => do
      onStream (Stream.send data)
      Task.modifySelf fun p => { p with sent := p.sent ++ [data] }
  | .close => onStream Stream.close
  | .receiveAvailable length => reading (Reader.receiveAvailable length)
  | .receive length => reading (Reader.receive length)
  | .receiveAll length => reading (Reader.receiveAll length)
  | .receiveMessage length => reading (Reader.receiveMessage length)

end Party

/-- A single step of sending: a party begins to send, or to close the stream, or puts the
next message on the way. -/
inductive Speaks : Scene Party → Scene Party → Prop
  | begin {m : Machine} {p : Party} {data : List UInt8} (isOpen : p.stream.closed = false)
      (idle : p.rest = []) (short : data.length < Ring.lengthLimit) :
      Speaks ⟨m, p⟩ ⟨m, { p with
        sent := p.sent ++ [data], rest := wireForm p.stream.transport.width data }⟩
  | hangUp {m : Machine} {p : Party} (isOpen : p.stream.closed = false) (idle : p.rest = []) :
      Speaks ⟨m, p⟩ ⟨m, { p with
        stream := { p.stream with closed := true }
        rest := [closeWords p.stream.transport.width] }⟩
  | transmit {m m' : Machine} {p : Party} {words : List UInt64} {rest : List (List UInt64)}
      {flags : SendFlags} {t : Transport} (next : p.rest = words :: rest)
      (offered : Transport.offer { words } flags ⟨p.stream.transport, ⟨m, ()⟩, []⟩ =
        .ok (some ()) ⟨t, ⟨m', ()⟩, []⟩) :
      Speaks ⟨m, p⟩ ⟨m', { p with stream := { p.stream with transport := t }, rest }⟩

/-- A single step of receiving: a party takes a message from the transport, or hands out
bytes. -/
inductive Listens : Scene Party → Scene Party → Prop
  | pull {m m' : Machine} {p : Party} {fragment : Option Fragment} {s : Stream}
      (pulled : Stream.pull ⟨p.stream, ⟨m, ()⟩, []⟩ = .ok fragment ⟨s, ⟨m', ()⟩, []⟩) :
      Listens ⟨m, p⟩ ⟨m', { p with stream := s }⟩
  | handOut {m : Machine} {p : Party} (limit : Nat) :
      Listens ⟨m, p⟩ ⟨m, { p with
        stream := (p.stream.drain limit).2, got := p.got ++ (p.stream.drain limit).1 }⟩

/-- The single steps of a part. -/
def Part.Steps : Part → Scene Party → Scene Party → Prop
  | speaker => Speaks
  | listener => Listens

theorem Speaks.act {scene scene' : Scene Party} (speaks : Speaks scene scene') :
    Act scene scene' := by
  cases speaks with
  | begin isOpen idle short => exact .begin isOpen idle short
  | hangUp isOpen idle => exact .hangUp isOpen idle
  | transmit next offered => exact .transmit next offered

theorem Listens.act {scene scene' : Scene Party} (listens : Listens scene scene') :
    Act scene scene' := by
  cases listens with
  | pull pulled => exact .pull pulled
  | handOut limit => exact .handOut limit

theorem Part.Steps.act {part : Part} {scene scene' : Scene Party} (step : part.Steps scene scene') :
    Act scene scene' := by
  cases part with
  | speaker => exact Speaks.act step
  | listener => exact Listens.act step

/-- Receiving leaves the messages alone that are to be put on the way. -/
theorem Listens.rest_eq {m m' : Machine} {p p' : Party} (listens : Listens ⟨m, p⟩ ⟨m', p'⟩) :
    p'.rest = p.rest := by
  cases listens with
  | pull pulled => rfl
  | handOut limit => rfl

section Operations

variable {σ α : Type} {rely : Scene σ → Scene σ → Prop} {good : Party → Scene σ → Prop}

/-- A condition on a party and its scene that keeps the channel in order, and that is kept
by these single steps of the party and by the others. -/
structure Upheld (steps : Scene Party → Scene Party → Prop) (rely : Scene σ → Scene σ → Prop)
    (good : Party → Scene σ → Prop) : Prop where
  conserving : ∀ {p scene}, good p scene → ∃ q, Conserving scene.machine p q
  step : ∀ {p p' m m' others}, good p ⟨m, others⟩ → steps ⟨m, p⟩ ⟨m', p'⟩ → good p' ⟨m', others⟩
  stable : ∀ {p scene scene'}, good p scene → rely scene scene' → good p scene'

/-- What the steps keep about the party alone may be added to a condition. -/
theorem Upheld.along {steps : Scene Party → Scene Party → Prop} (upheld : Upheld steps rely good)
    (extra : Party → Prop)
    (kept : ∀ {m m' p p'}, extra p → steps ⟨m, p⟩ ⟨m', p'⟩ → extra p') :
    Upheld steps rely fun p scene => good p scene ∧ extra p where
  conserving both := upheld.conserving both.1
  step both step := ⟨upheld.step both.1 step, kept both.2 step⟩
  stable both follows := ⟨upheld.stable both.1 follows, both.2⟩

variable {p : Party}

/-! ### Receiving -/

/-- A condition on a reader and its scene that is kept by taking a message, by handing out,
and by the others. -/
structure Readable (rely : Scene σ → Scene σ → Prop) (holds : Reader → Scene σ → Prop) :
    Prop where
  pull : Task.Keeps (Task.Among rely holds) (Reader.onStream Stream.pull)
  drain : ∀ upTo, Task.Keeps (Task.Among rely holds) (Task.modifySelf (·.drain upTo))
  stable : ∀ r scene scene', holds r scene → rely scene scene' → holds r scene'

/-- The condition on a party whose stream is read into a buffer. -/
def Filling (good : Party → Scene σ → Prop) (p : Party) (r : Reader) (scene : Scene σ) : Prop :=
  good { p with stream := r.stream, got := p.got ++ r.filled } scene

section Rounds

variable {invariant : Moment Reader σ → Prop} {upTo : Nat}
  (rounds : Task.Keeps invariant (Reader.fillRound upTo : Task Reader σ (Option Unit)))

include rounds

/-- What each round of filling keeps, filling keeps, and so does what is made of it. -/
theorem rounds_fill : Task.Keeps invariant (Reader.fill upTo : Task Reader σ Unit) := by
  apply Task.Keeps.bind Task.Keeps.get
  intro now
  exact Task.Keeps.repeatWithin rounds _

theorem rounds_receiveAvailable :
    Task.Keeps invariant (Reader.receiveAvailable upTo : Task Reader σ Nat) := by
  apply Task.Keeps.bind (rounds_fill rounds)
  intro _
  apply Task.Keeps.bind Task.Keeps.self
  intro r
  exact Task.Keeps.pure _

variable (pauses : Task.Keeps invariant (Task.pause : Task Reader σ Unit))

include pauses

theorem rounds_receive : Task.Keeps invariant (Reader.receive upTo : Task Reader σ Nat) := by
  apply Task.Keeps.polling
  · apply Task.Keeps.bind (rounds_fill rounds)
    intro _
    apply Task.Keeps.bind Task.Keeps.self
    intro r
    split
    · exact Task.Keeps.pure _
    · exact Task.Keeps.pure _
  · exact pauses

theorem rounds_receiveAll : Task.Keeps invariant (Reader.receiveAll upTo : Task Reader σ Unit) := by
  apply Task.Keeps.polling
  · apply Task.Keeps.bind (rounds_fill rounds)
    intro _
    apply Task.Keeps.bind Task.Keeps.self
    intro r
    split
    · exact Task.Keeps.pure _
    · split
      · exact Task.Keeps.fail_bind _ _
      · exact Task.Keeps.pure _
  · exact pauses

end Rounds

section Receiving

theorem keeps_pull (upheld : Upheld Listens rely good) :
    Task.Keeps (Task.Among rely (Filling good p))
      (Reader.onStream Stream.pull : Task Reader σ (Option Fragment)) := by
  rintro ⟨r, ⟨m, others⟩, turns⟩ ⟨here, lawful⟩
  obtain ⟨q, conserving⟩ := upheld.conserving here
  obtain ⟨fragment, s, m', -, pulled⟩ := conserving.pull
  have listens := Listens.pull (p := { p with stream := r.stream, got := p.got ++ r.filled })
    (pulled Unit () [])
  have pulled : Stream.pull ⟨r.stream, ⟨m, others⟩, turns⟩ = .ok fragment ⟨s, ⟨m', others⟩, turns⟩ :=
    pulled σ others turns
  apply Task.ends_within
  rw [pulled]
  exact ⟨upheld.step here listens, lawful⟩

theorem keeps_drain (upheld : Upheld Listens rely good) (upTo : Nat) :
    Task.Keeps (Task.Among rely (Filling good p))
      (Task.modifySelf (·.drain upTo) : Task Reader σ Unit) := by
  rintro ⟨r, ⟨m, others⟩, turns⟩ ⟨here, lawful⟩
  have handed := upheld.step here (Listens.handOut (upTo - r.filled.length))
  refine ⟨?_, lawful⟩
  rw [List.append_assoc] at handed
  exact handed

/-- What the single steps keep about a party, a reader of its stream keeps. -/
theorem Upheld.readable (upheld : Upheld Listens rely good) (p : Party) :
    Readable rely (Filling good p) where
  pull := keeps_pull upheld
  drain := keeps_drain upheld
  stable _ _ _ := upheld.stable

variable {holds : Reader → Scene σ → Prop} (readable : Readable rely holds)

include readable

theorem keeps_fillRound (upTo : Nat) : Task.Keeps (Task.Among rely holds)
    (Reader.fillRound upTo : Task Reader σ (Option Unit)) := by
  apply Task.Keeps.bind (readable.drain upTo)
  intro _
  apply Task.Keeps.bind Task.Keeps.self
  intro r
  split
  · exact Task.Keeps.pure _
  · apply Task.Keeps.bind readable.pull
    rintro (_ | fragment)
    · exact Task.Keeps.pure _
    · exact Task.Keeps.pure _

theorem keeps_receiveAvailable (length : Nat) : Task.Keeps (Task.Among rely holds)
    (Reader.receiveAvailable length : Task Reader σ Nat) :=
  rounds_receiveAvailable (keeps_fillRound readable length)

theorem keeps_receive (length : Nat) : Task.Keeps (Task.Among rely holds)
    (Reader.receive length : Task Reader σ Nat) :=
  rounds_receive (keeps_fillRound readable length) (.pause readable.stable)

theorem keeps_receiveAll (upTo : Nat) : Task.Keeps (Task.Among rely holds)
    (Reader.receiveAll upTo : Task Reader σ Unit) :=
  rounds_receiveAll (keeps_fillRound readable upTo) (.pause readable.stable)

theorem keeps_awaitStart : Task.Keeps (Task.Among rely holds)
    (Reader.awaitStart : Task Reader σ UInt64) := by
  apply Task.Keeps.await
  · apply Task.Keeps.bind Task.Keeps.self
    intro r
    split
    · exact Task.Keeps.fail_bind _ _
    · apply Task.Keeps.bind readable.pull
      rintro (_ | fragment)
      · exact Task.Keeps.pure _
      · cases fragment with
        | start length => exact Task.Keeps.pure _
        | continuation => exact Task.Keeps.fail _
        | close => exact Task.Keeps.fail _
  · exact readable.stable

theorem keeps_receiveMessage (length : Nat) : Task.Keeps (Task.Among rely holds)
    (Reader.receiveMessage length : Task Reader σ Nat) := by
  apply Task.Keeps.bind Task.Keeps.self
  intro r
  split
  · exact Task.Keeps.fail_bind _ _
  · apply Task.Keeps.bind (keeps_awaitStart readable)
    intro total
    split
    · exact Task.Keeps.fail_bind _ _
    · exact Task.Keeps.bind (keeps_receiveAll readable _) fun _ => Task.Keeps.pure _

end Receiving

/-- Whatever a task that reads into a buffer keeps, it keeps as an operation of a party. -/
theorem keeps_reading {task : Task Reader σ α}
    (keeps : ∀ p, Task.Keeps (Task.Among rely (Filling good p)) task) :
    Task.Keeps (Task.Among rely good) (Party.reading task) := by
  rintro ⟨p, scene, turns⟩ among
  apply Task.ends_bind
  apply Task.ends_within
  refine (keeps p ⟨{ stream := p.stream }, scene, turns⟩ ⟨?_, among.lawful⟩).mono ?_ ?_
  · change good { p with stream := p.stream, got := p.got ++ [] } scene
    rw [List.append_nil]
    exact among.here
  · exact fun _ inner among' => ⟨among'.here, among'.lawful⟩
  · exact fun _ inner among' => ⟨among'.here, among'.lawful⟩

/-- An operation that receives keeps what its single steps keep. -/
theorem keeps_listening (upheld : Upheld Listens rely good) {op : Op} (listens : op.part = .listener) :
    Task.Keeps (Task.Among rely good) (Party.perform op) := by
  cases op with
  | send data => cases listens
  | close => cases listens
  | receiveAvailable length => exact keeps_reading fun p => keeps_receiveAvailable (upheld.readable p) length
  | receive length => exact keeps_reading fun p => keeps_receive (upheld.readable p) length
  | receiveAll length => exact keeps_reading fun p => keeps_receiveAll (upheld.readable p) length
  | receiveMessage length => exact keeps_reading fun p => keeps_receiveMessage (upheld.readable p) length

/-! ### Sending -/

/-- The condition on a party with so many messages left to be put on the way. -/
def Sending (good : Party → Scene σ → Prop) (p : Party) (rest : List (List UInt64)) (s : Stream)
    (scene : Scene σ) : Prop :=
  good { p with stream := s, rest } scene

section Sending

variable {words : List UInt64} {rest : List (List UInt64)} {flags : SendFlags}
  (upheld : Upheld Speaks rely good)

include upheld

theorem ends_offer {s : Stream} {now : Moment Transport σ}
    (among : Task.Among rely (fun t => Sending good p (words :: rest) { s with transport := t })
      now) :
    Task.Ends (Transport.offer { words } flags now) (fun
      | none, now =>
          Task.Among rely (fun t => Sending good p (words :: rest) { s with transport := t }) now
      | some (), now =>
          Task.Among rely (fun t => Sending good p rest { s with transport := t }) now)
      fun _ _ => False := by
  obtain ⟨t, ⟨m, others⟩, turns⟩ := now
  let here : Party := { p with stream := { s with transport := t }, rest := words :: rest }
  have holds : good here ⟨m, others⟩ := among.here
  obtain ⟨q, conserving⟩ := upheld.conserving holds
  rcases conserving.transmit (p := here) flags with refused | ⟨t', m', -, sent⟩
  · have refused : Transport.offer { words } flags ⟨t, ⟨m, others⟩, turns⟩ =
        .ok none ⟨t, ⟨m, others⟩, turns⟩ := refused σ others turns
    rw [refused]
    exact among
  · have speaks := Speaks.transmit (p := here) rfl (sent Unit () [])
    have sent : Transport.offer { words } flags ⟨t, ⟨m, others⟩, turns⟩ =
        .ok (some ()) ⟨t', ⟨m', others⟩, turns⟩ := sent σ others turns
    rw [sent]
    exact ⟨upheld.step holds speaks, among.lawful⟩

/-- A message is put on the way, or the wait for that is the last thing that happens. -/
theorem ends_send {now : Moment Stream σ}
    (among : Task.Among rely (Sending good p (words :: rest)) now) :
    Task.Ends (onTransport (Transport.send { words } flags) now)
      (fun _ now => Task.Among rely (Sending good p rest) now)
      fun stop now => (∃ h, stop = .halted h) ∧
        Task.Among rely (Sending good p (words :: rest)) now := by
  obtain ⟨s, scene, turns⟩ := now
  apply Task.ends_within
  have waits : Task.Ends (Task.await (Transport.offer { words } flags) ⟨s.transport, scene, turns⟩)
      (fun _ inner => Task.Among rely (Sending good p rest)
        ⟨{ s with transport := inner.self }, inner.scene, inner.turns⟩)
      fun stop inner => (∃ h, stop = .halted h) ∧ Task.Among rely (Sending good p (words :: rest))
        ⟨{ s with transport := inner.self }, inner.scene, inner.turns⟩ := by
    apply Task.ends_await fun t => Sending good p (words :: rest) { s with transport := t }
    · intro now among
      refine (ends_offer upheld among).mono ?_ fun _ _ impossible => impossible.elim
      rintro (_ | _) now' among'
      · exact among'
      · exact ⟨among'.here, among'.lawful⟩
    · exact fun t scene scene' => upheld.stable
    · exact fun h now among => ⟨⟨h, rfl⟩, among.here, among.lawful⟩
    · exact ⟨among.here, among.lawful⟩
  cases transport : s.transport with
  | endpoint ep =>
      rw [transport] at waits
      exact waits
  | slots chan =>
      obtain ⟨q, toQ, toP, linked, fitP, -⟩ := upheld.conserving among.here
      have fits : words.length = s.transport.width := fitP.rest words List.mem_cons_self
      rw [transport] at waits fits
      have small : ¬ words.length > chan.payloadWords := Nat.not_lt.mpr (Nat.le_of_eq fits)
      simp only [Transport.send, Task.self_bind, Option.isSome_none, Bool.false_eq_true, if_false,
        if_neg small]
      exact waits

theorem ends_sendTail {now : Moment Stream σ} (among : Task.Among rely (Sending good p rest) now) :
    Task.Ends (sendTail rest now) (fun _ now => Task.Among rely (Sending good p []) now)
      fun stop now => (∃ h, stop = .halted h) ∧ ∃ left, left <:+ rest ∧
        Task.Among rely (Sending good p left) now := by
  induction rest generalizing now with
  | nil => exact among
  | cons words rest ih =>
      have next : ∀ flags, Task.Ends (onTransport (Transport.send { words } flags) now)
          (fun _ now => Task.Among rely (Sending good p rest) now)
          fun stop now => (∃ h, stop = .halted h) ∧ ∃ left, left <:+ words :: rest ∧
            Task.Among rely (Sending good p left) now := by
        intro flags
        refine (ends_send upheld among).mono (fun _ _ among => among) ?_
        rintro stop now' ⟨halted, among'⟩
        exact ⟨halted, _, List.suffix_refl _, among'⟩
      cases rest with
      | nil =>
          unfold sendTail
          rw [Task.self_bind]
          exact next _
      | cons further rest =>
          unfold sendTail
          apply Task.ends_bind
          refine (next _).mono ?_ fun _ _ stops => stops
          intro _ now' among'
          refine (ih among').mono (fun _ _ among => among) ?_
          rintro stop now'' ⟨halted, left, suffix, among''⟩
          exact ⟨halted, left, suffix.trans (List.suffix_cons _ _), among''⟩

/-- A byte string is sent whole, or refused and not sent at all, or the wait for room
is the last thing that happens. -/
theorem ends_streamSend {data : List UInt8} (short : data.length < Ring.lengthLimit)
    {now : Moment Stream σ} (among : Task.Among rely (Sending good p []) now) :
    Task.Ends (Stream.send data now)
      (fun _ now =>
        Task.Among rely (Sending good { p with sent := p.sent ++ [data] } []) now)
      fun stop now' => match stop with
        | .failed _ => Task.Among rely (Sending good p []) now'
        | .halted _ => ∃ left, left <:+ wireForm now.self.transport.width data ∧
            Sending good { p with sent := p.sent ++ [data] } left now'.self now'.scene := by
  unfold Stream.send
  rw [Task.self_bind]
  by_cases closed : now.self.closed = true
  · rw [if_pos closed]
    exact among
  rw [if_neg closed, if_neg (ofNat_ne_closeMark short)]
  have speaks := Speaks.begin (m := now.scene.machine) (p := { p with stream := now.self, rest := [] })
    (Bool.eq_false_iff.mpr closed) rfl short
  have begun : Task.Among rely (Sending good { p with sent := p.sent ++ [data] }
      (wireForm now.self.transport.width data)) now :=
    ⟨upheld.step among.here speaks, among.lawful⟩
  split
  · exact among
  apply Task.ends_bind
  refine (ends_send upheld begun).mono ?_ ?_
  · intro _ now' among'
    refine (ends_sendTail upheld among').mono (fun _ _ among => among) ?_
    rintro stop now'' ⟨⟨h, rfl⟩, left, suffix, among''⟩
    exact ⟨left, suffix.trans (List.suffix_cons _ _), among''.here⟩
  · rintro stop now' ⟨⟨h, rfl⟩, among'⟩
    exact ⟨_, List.suffix_refl _, among'.here⟩

/-- The announcement of the end is sent, or the wait for room is the last thing that
happens. -/
theorem ends_close {now : Moment Stream σ} (among : Task.Among rely (Sending good p []) now) :
    Task.Ends (Stream.close now) (fun _ now => Task.Among rely (Sending good p []) now)
      fun stop now' => match stop with
        | .failed _ => Task.Among rely (Sending good p []) now'
        | .halted _ => ∃ left, left <:+ [closeWords now.self.transport.width] ∧
            Sending good p left now'.self now'.scene := by
  unfold Stream.close
  rw [Task.self_bind]
  by_cases closed : now.self.closed = true
  · rw [if_pos closed]
    exact among
  rw [if_neg closed, Task.setSelf_bind]
  have speaks := Speaks.hangUp (m := now.scene.machine)
    (p := { p with stream := now.self, rest := [] }) (Bool.eq_false_iff.mpr closed) rfl
  have begun : Task.Among rely (Sending good p [closeWords now.self.transport.width])
      { now with self := { now.self with closed := true } } :=
    ⟨upheld.step among.here speaks, among.lawful⟩
  apply Task.ends_bind
  apply Task.ends_settle
  refine (ends_send upheld begun).mono (fun _ _ among => among) ?_
  rintro stop now' ⟨⟨h, rfl⟩, among'⟩
  exact ⟨_, List.suffix_refl _, among'.here⟩

/-- Where an operation that sends ends, the condition holds again and nothing is left to be
put on the way. Where it is cut short, the condition holds with the messages that are
left. -/
theorem ends_speaking {op : Op} (speaks : op.part = .speaker) (short : op.Short)
    {now : Moment Party σ} (idle : now.self.rest = []) (among : Task.Among rely good now) :
    Task.Ends (Party.perform op now)
      (fun _ now => Task.Among rely good now ∧ now.self.rest = [])
      fun stop now' => match stop with
        | .failed _ => Task.Among rely good now' ∧ now'.self.rest = []
        | .halted _ => ∃ left, left <:+ op.messages now.self.stream.transport.width ∧
            good { now'.self with
              sent := now'.self.sent ++ op.strings, rest := left } now'.scene := by
  obtain ⟨⟨stream, sent, rest, got⟩, scene, turns⟩ := now
  obtain rfl : rest = [] := idle
  let p : Party := { stream, sent, got }
  have sending : Task.Among rely (Sending good p []) ⟨stream, scene, turns⟩ :=
    ⟨among.here, among.lawful⟩
  cases op with
  | send data =>
      apply Task.ends_bind
      apply Task.ends_within
      refine (ends_streamSend upheld short sending).mono ?_ ?_
      · exact fun _ inner among' => ⟨⟨among'.here, among'.lawful⟩, rfl⟩
      · rintro (e | h) inner ends
        · exact ⟨⟨ends.here, ends.lawful⟩, rfl⟩
        · exact ends
  | close =>
      unfold Party.perform Party.onStream
      apply Task.ends_within
      refine (ends_close upheld sending).mono ?_ ?_
      · exact fun _ inner among' => ⟨⟨among'.here, among'.lawful⟩, rfl⟩
      · rintro (e | h) inner ends
        · exact ⟨⟨ends.here, ends.lawful⟩, rfl⟩
        · obtain ⟨left, suffix, here⟩ := ends
          refine ⟨left, suffix, ?_⟩
          change good { p with stream := inner.self, sent := sent ++ [], rest := left } _
          rw [List.append_nil]
          exact here
  | receiveAvailable length => cases speaks
  | receive length => cases speaks
  | receiveAll length => cases speaks
  | receiveMessage length => cases speaks

end Sending

end Operations

/-- The moment at which an operation ended, unless everything ended with it. -/
def outcome? {σ α : Type} : EStateM.Result Stop (Moment Party σ) α → Option (Moment Party σ)
  | .ok _ now => some now
  | .error (.failed _) now => some now
  | .error (.halted _) _ => none

/-- A turn in which nothing happens. -/
def nothing : Turn Unit := fun scene => .ok () scene

/-- An operation that ended, by itself or by a failure, kept what the steps of its part
keep. -/
theorem Upheld.ended {σ : Type} {rely : Scene σ → Scene σ → Prop} {good : Party → Scene σ → Prop}
    {part : Part} (upheld : Upheld part.Steps rely good) {op : Op} (plays : op.part = part)
    (short : op.Short) {now now' : Moment Party σ} (idle : now.self.rest = [])
    (among : Task.Among rely good now) (ended : outcome? (Party.perform op now) = some now') :
    good now'.self now'.scene := by
  have ends : Task.Ends (Party.perform op now) (fun _ now => good now.self now.scene)
      fun stop now => (∃ h, stop = .halted h) ∨ good now.self now.scene := by
    cases part with
    | speaker =>
        refine (ends_speaking upheld plays short idle among).mono ?_ ?_
        · exact fun _ now' ends => ends.1.here
        · rintro (e | h) now' ends
          · exact .inr ends.1.here
          · exact .inl ⟨h, rfl⟩
    | listener =>
        refine (keeps_listening upheld plays now among).mono ?_ ?_
        · exact fun _ now' among => among.here
        · exact fun _ now' among => .inr among.here
  cases ran : Party.perform op now with
  | ok _ now'' =>
      rw [ran] at ends ended
      cases ended
      exact ends
  | error stop now'' =>
      rw [ran] at ends ended
      cases stop with
      | failed e =>
          cases ended
          rcases ends with ⟨h, impossible⟩ | here
          · cases impossible
          · exact here
      | halted h => cases ended

end Stream

end Conduit

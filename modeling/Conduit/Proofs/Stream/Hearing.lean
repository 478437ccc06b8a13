/-
# A listener, whatever fails

What was accepted for an endpoint was either taken from it or waits there, in order
(`Flows`), and what a receiving end holds, expects and handed out is what the messages that
it took say (`Heard`). Each message that is taken keeps this, and so does a refusal by the
kernel, as a refusal takes nothing. So it holds again however an operation that receives
ends (`keeps_listen`); in particular the bytes that reached the buffer before a failure are
gone from the stream.
-/

import Conduit.Proofs.Call.Transfer
import Conduit.Proofs.Stream.Operations
import Conduit.Proofs.Stream.Transcript

namespace Conduit

namespace Stream

variable {σ : Type} {m m' : Machine} {home : Cap} {said taken : List (List UInt64)}
  {words : List UInt64} {s : Stream} {got : List UInt8}

/-! ### The messages of one endpoint -/

/-- Of the messages that were accepted for an endpoint, these were taken; the others wait
there, and carry no capability. -/
def Flows (m : Machine) (home : Cap) (said taken : List (List UInt64)) : Prop :=
  ∃ later, said = taken ++ later ∧ m.kernel.waiting home = later.map Letter.plain ∧
    ∀ words ∈ later, words.length = Letter.width

namespace Flows

theorem congr (flows : Flows m home said taken)
    (same : m'.kernel.waiting home = m.kernel.waiting home) : Flows m' home said taken := by
  obtain ⟨later, split, waits, widths⟩ := flows
  exact ⟨later, split, same.trans waits, widths⟩

/-- One more message is accepted. -/
theorem post (flows : Flows m home said taken) (fits : words.length = Letter.width)
    (moved : m'.kernel.waiting = Function.update m.kernel.waiting home
      (m.kernel.waiting home ++ [Letter.plain words])) : Flows m' home (said ++ [words]) taken := by
  obtain ⟨later, rfl, waits, widths⟩ := flows
  refine ⟨later ++ [words], (List.append_assoc _ _ _), ?_, ?_⟩
  · rw [moved, Function.update_self, waits, List.map_append, List.map_singleton]
  · intro w mem
    rcases List.mem_append.mp mem with old | new
    · exact widths w old
    · rw [List.mem_singleton.mp new]
      exact fits

/-- The first of the messages that wait is taken. -/
theorem fetch {letter : Letter} {rest : List Letter} (flows : Flows m home said taken)
    (waits : m.kernel.waiting home = letter :: rest)
    (moved : m'.kernel.waiting = Function.update m.kernel.waiting home rest) :
    ∃ words, letter = Letter.plain words ∧ letter.message.words = words ∧
      Flows m' home said (taken ++ [words]) := by
  obtain ⟨later, rfl, queue, widths⟩ := flows
  rw [waits] at queue
  obtain ⟨words, later, rfl, rfl, rfl⟩ := List.map_eq_cons_iff.mp queue.symm
  refine ⟨words, rfl, Letter.toList_fit (widths words List.mem_cons_self), later, ?_, ?_, ?_⟩
  · rw [List.append_assoc, List.singleton_append]
  · rw [moved, Function.update_self]
  · exact fun w mem => widths w (List.mem_cons_of_mem _ mem)

/-- What was accepted was taken, or waits. -/
theorem split {ep : Endpoint} (flows : Flows m ep.home said taken) :
    said = taken ++ Transport.waiting m (.endpoint ep) := by
  obtain ⟨later, split, waits, widths⟩ := flows
  have words : Transport.waiting m (.endpoint ep) = later := by
    rw [Transport.waiting, waits, List.map_map]
    exact (List.map_congr_left fun words mem => Letter.toList_fit (widths words mem)).trans
      (List.map_id _)
  rw [split, words]

end Flows

/-! ### The receiving end -/

/-- Where a receiving end is that took these messages and handed out these bytes. -/
structure Heard (taken : List (List UInt64)) (s : Stream) (got : List UInt8) : Prop where
  valid : s.ring.Valid
  held : decode 0 taken = (got ++ s.backlog, s.bytesLeft)
  ended : closes 0 taken = s.closed

namespace Heard

/-- A message that is taken is held from then on. -/
theorem absorb (heard : Heard taken s got) (words : List UInt64) :
    Heard (taken ++ [words]) (s.absorb words).2 got where
  valid := valid_absorb heard.valid words
  held := by
    have one : decode s.bytesLeft [words] = scan s.bytesLeft words :=
      Prod.ext (List.append_nil _) rfl
    rw [decode_append, heard.held, one, backlog_absorb heard.valid, bytesLeft_absorb,
      List.append_assoc]
  ended := by
    have one : closes s.bytesLeft [words] = isClose s.bytesLeft words := Bool.or_false _
    rw [closes_append, heard.ended, heard.held, one, closed_absorb]
    rfl

/-- Bytes that are handed out are those that were held longest. -/
theorem drain (heard : Heard taken s got) (limit : Nat) :
    Heard taken (s.drain limit).2 (got ++ (s.drain limit).1) where
  valid := valid_drainWithin heard.valid _ _
  held := by
    obtain ⟨left, -⟩ := drainWithin_keeps (limit + 1) limit s
    rw [heard.held, backlog_drainWithin heard.valid (limit + 1) limit, ← List.append_assoc]
    exact congrArg _ left.symm
  ended := by
    obtain ⟨-, -, closed⟩ := drainWithin_keeps (limit + 1) limit s
    exact heard.ended.trans closed.symm

end Heard

/-- A receiving end over an endpoint took some of the messages that were accepted for it. -/
structure Hears (b : Endpoint) (m : Machine) (said : List (List UInt64)) (s : Stream)
    (got : List UInt8) : Prop where
  across : s.transport = .endpoint b
  took : ∃ taken, Flows m b.home said taken ∧ Heard taken s got

variable {b : Endpoint}

theorem Hears.congr (hears : Hears b m said s got)
    (same : m'.kernel.waiting b.home = m.kernel.waiting b.home) : Hears b m' said s got := by
  obtain ⟨across, taken, flows, heard⟩ := hears
  exact ⟨across, taken, flows.congr same, heard⟩

theorem Hears.post (hears : Hears b m said s got) (fits : words.length = Letter.width)
    (moved : m'.kernel.waiting = Function.update m.kernel.waiting b.home
      (m.kernel.waiting b.home ++ [Letter.plain words])) : Hears b m' (said ++ [words]) s got := by
  obtain ⟨across, taken, flows, heard⟩ := hears
  exact ⟨across, taken, flows.post fits moved, heard⟩

/-! ### Operations that receive -/

/-- A receiving end hears what the others told. -/
def Follows (b : Endpoint) (tells : σ → List (List UInt64) → Prop) (s : Stream) (got : List UInt8)
    (scene : Scene σ) : Prop :=
  ∃ said, tells scene.others said ∧ Hears b scene.machine said s got

/-- Whatever the others do, a receiving end goes on hearing them. -/
def Audible (b : Endpoint) (tells : σ → List (List UInt64) → Prop)
    (rely : Scene σ → Scene σ → Prop) : Prop :=
  ∀ s got scene scene', Follows b tells s got scene → rely scene scene' →
    Follows b tells s got scene'

section Listening

variable {b : Endpoint} {tells : σ → List (List UInt64) → Prop} {rely : Scene σ → Scene σ → Prop}
  (audible : Audible b tells rely)

include audible

theorem Audible.lasting (s : Stream) (got : List UInt8) : Lasting rely (Follows b tells s got) where
  kept := audible s got
  queues m m' others follows same := by
    obtain ⟨said, told, hears⟩ := follows
    exact ⟨said, told, hears.congr (congrFun same _)⟩

/-- A message is taken and absorbed, or none is. -/
theorem Audible.pull (got : List UInt8) {now : Moment Stream σ}
    (among : Task.Among rely (fun s => Follows b tells s got) now) :
    Task.Ends (Stream.pull now) (fun _ => Task.Among rely fun s => Follows b tells s got)
      fun _ => Task.Among rely fun s => Follows b tells s got := by
  obtain ⟨s, scene, turns⟩ := now
  obtain ⟨here, lawful⟩ := among
  have across : s.transport = .endpoint b := by
    obtain ⟨_, -, hears⟩ := here
    exact hears.across
  have can : onTransport Transport.canReceive ⟨s, scene, turns⟩ =
      .ok (b.canRecv scene.machine) ⟨s, scene, turns⟩ := by
    have asked : Transport.canReceive ⟨s.transport, scene, turns⟩ =
        .ok (b.canRecv scene.machine) ⟨s.transport, scene, turns⟩ := by
      rw [across]
      rfl
    exact onTransport_ok asked
  have back : ∀ {inner : Moment Transport σ} {known : Scene σ → Prop},
      Task.Among rely (Still (.endpoint b) known) inner →
      { s with transport := inner.self } = s ∧ known inner.scene := by
    rintro inner known ⟨⟨same, holds⟩, -⟩
    rw [same, ← across]
    exact ⟨rfl, holds⟩
  unfold Stream.pull
  rw [Task.bind_ok can]
  cases b.canRecv scene.machine with
  | false => exact ⟨here, lawful⟩
  | true =>
      apply Task.ends_bind
      apply Task.ends_within
      have start : Task.Among rely (Still (.endpoint b) (Follows b tells s got))
          ⟨s.transport, scene, turns⟩ := ⟨⟨across, here⟩, lawful⟩
      refine (Transport.ends_receive (audible.lasting s got)
        (fun letter => (Lasting.const (letter.cap = none)).and
          (audible.lasting (s.absorb letter.message.words).2 got)) ?_ start).mono ?_ ?_
      · rintro m m' others letter rest ⟨said, told, -, taken, flows, heard⟩ waits moved
        obtain ⟨words, plain, same, flows'⟩ := flows.fetch waits moved
        refine ⟨congrArg Letter.cap plain, said, told, ?_, _, flows', ?_⟩
        · rw [transport_absorb, across]
        · rw [same]
          exact heard.absorb words
      · rintro (_ | message) inner received
        · obtain ⟨same, follows⟩ := back received
          exact ⟨same.symm ▸ follows, received.lawful⟩
        · obtain ⟨letter, rfl, among⟩ := received
          obtain ⟨same, -, follows⟩ := back among
          refine ⟨?_, among.lawful⟩
          change Follows b tells (({ s with transport := inner.self } : Stream).absorb
            letter.message.words).2 got inner.scene
          rw [same]
          exact follows
      · rintro stop inner ⟨-, among | ⟨letter, carries, among⟩⟩
        · obtain ⟨same, follows⟩ := back among
          exact ⟨same.symm ▸ follows, among.lawful⟩
        · obtain ⟨-, none, -⟩ := back among
          rw [none] at carries
          cases carries

/-- A reader of what is heard. -/
theorem Audible.readable (got : List UInt8) :
    Readable rely fun r => Follows b tells r.stream (got ++ r.filled) where
  pull := by
    rintro ⟨r, scene, turns⟩ ⟨here, lawful⟩
    apply Task.ends_within
    refine (audible.pull (got ++ r.filled) ⟨here, lawful⟩).mono ?_ ?_
    · exact fun _ inner among => ⟨among.here, among.lawful⟩
    · exact fun _ inner among => ⟨among.here, among.lawful⟩
  drain := by
    rintro upTo ⟨r, scene, turns⟩ ⟨⟨said, told, across, taken, flows, heard⟩, lawful⟩
    obtain ⟨-, transport, -⟩ := drainWithin_keeps (upTo - r.filled.length + 1)
      (upTo - r.filled.length) r.stream
    have drained := heard.drain (upTo - r.filled.length)
    rw [List.append_assoc] at drained
    exact ⟨⟨said, told, transport.trans across, taken, flows, drained⟩, lawful⟩
  stable r := audible r.stream (got ++ r.filled)

end Listening

/-- The task of an operation that receives. It gives the number of bytes that it reports. -/
def Op.listen : Op → Task Reader σ Nat
  | send _ | close => return 0
  | receiveAvailable length => Reader.receiveAvailable length
  | receive length => Reader.receive length
  | receiveAll length => do
      Reader.receiveAll length
      return length
  | receiveMessage length => Reader.receiveMessage length

/-- An operation that receives keeps what its single steps keep. -/
theorem keeps_listen {rely : Scene σ → Scene σ → Prop} {holds : Reader → Scene σ → Prop}
    (readable : Readable rely holds) (op : Op) :
    Task.Keeps (Task.Among rely holds) (op.listen : Task Reader σ Nat) := by
  cases op with
  | send data => exact Task.Keeps.pure _
  | close => exact Task.Keeps.pure _
  | receiveAvailable length => exact keeps_receiveAvailable readable length
  | receive length => exact keeps_receive readable length
  | receiveAll length =>
      exact Task.Keeps.bind (keeps_receiveAll readable length) fun _ => Task.Keeps.pure _
  | receiveMessage length => exact keeps_receiveMessage readable length

/-- Whenever the task returns, this holds. -/
def Returning {δ α : Type} (done : α → Moment δ σ → Prop) (task : Task δ σ α) : Prop :=
  ∀ now, Task.Ends (task now) done fun _ _ => True

namespace Returning

variable {δ α β : Type} {done : α → Moment δ σ → Prop}

protected theorem bind {task : Task δ σ β} {next : β → Task δ σ α}
    (later : ∀ b, Returning done (next b)) : Returning done (task >>= next) := by
  intro now
  apply Task.ends_bind
  cases task now with
  | ok b mid => exact later b mid
  | error stop mid => trivial

/-- A wait returns what its last poll gave. -/
theorem await {poll : Task δ σ (Option α)}
    (polls : Returning (fun answer now => ∀ a ∈ answer, done a now) poll) :
    Returning done (Task.await poll) := by
  intro now
  refine Task.ends_repeatWithin (fun _ => True) ?_ (fun _ _ => trivial) _ trivial
  intro now _
  apply Task.ends_bind
  refine (polls now).mono ?_ fun _ _ _ => trivial
  rintro (_ | a) mid given
  · apply Task.ends_bind
    cases Task.pause mid with
    | ok u last => trivial
    | error stop last => trivial
  · exact given a rfl

end Returning

/-- A full buffer is as long as was asked for. -/
theorem returning_receiveAll (upTo : Nat) :
    Returning (fun _ now => now.self.filled.length = upTo)
      (Reader.receiveAll upTo : Task Reader σ Unit) := by
  refine Returning.await (Returning.bind fun _ now => ?_)
  rw [Task.self_bind]
  split
  · rintro _ -
    assumption
  · split
    · trivial
    · rintro _ none
      cases none

/-- An operation that returns reports just what reached the buffer. -/
theorem returning_listen {op : Op} (listens : op.part = .listener) :
    Returning (fun count now => count = now.self.filled.length) (op.listen : Task Reader σ Nat) := by
  have whole : ∀ upTo, Returning (fun count now => count = now.self.filled.length) (do
      Reader.receiveAll upTo
      return upTo : Task Reader σ Nat) := by
    intro upTo now
    apply Task.ends_bind
    exact (returning_receiveAll upTo now).mono (fun _ _ full => full.symm) fun _ _ _ => trivial
  cases op with
  | send data => cases listens
  | close => cases listens
  | receiveAvailable length => exact Returning.bind fun _ _ => rfl
  | receive length =>
      refine Returning.await (Returning.bind fun _ now => ?_)
      rw [Task.self_bind]
      split
      · exact fun _ given => (Option.mem_some.mp given).symm
      · rintro _ none
        cases none
  | receiveAll length => exact whole length
  | receiveMessage length =>
      refine Returning.bind fun r => ?_
      split
      · exact fun _ => trivial
      · refine Returning.bind fun total => ?_
        split
        · exact fun _ => trivial
        · exact whole total.toNat

end Stream

end Conduit

/-
# Sending after a failure

A byte string is sent as several messages, and the kernel may refuse one of them after the
first ones were accepted. The send fails then, and the listener waits for the rest of the
string: whatever is accepted next is taken for that, be it the length of another string or
the announcement of the end. `stays_framed` says that this is the only way in which the
listener takes a message for something else, and that until then it is given every byte
string that was sent, whole and in order, and sees the end exactly where it was announced.
`torn_send_hides_close` is a run in which the end is taken for bytes.
-/

import Conduit.Proofs.Stream.Line
import Conduit.Proofs.Stream.Sayings

namespace Conduit

namespace Stream

/-- What the messages that were accepted from a speaker are. -/
def Speaker.roles (p : Speaker) : List Fragment := p.log.flatMap Saying.roles

namespace Line

variable {home : Cap} {start final line : Line}

/-- How many of the messages that were accepted the listener took. -/
def taken (line : Line) : Nat := line.speaker.said.length - line.waiting.length

/-- Every message that was accepted is taken for what it is. -/
def Framed (line : Line) : Prop := readings 0 line.speaker.said = line.speaker.roles

/-- The listener is given what was sent. -/
structure Intact (line : Line) : Prop where
  /-- It will take the next message for what it is. -/
  next : ∀ words later, line.waiting = words :: later →
    line.speaker.roles[line.taken]? = some (line.listener.stream.absorb words).1
  /-- It gets the bytes of the operations, one operation after the other. -/
  bytes : line.listener.touched ++ line.listener.stream.backlog ++ line.onTheWay =
    line.speaker.log.flatMap Saying.bytes
  /-- These are the first bytes that an operation sends, and all of them if it returned. -/
  whole : ∀ saying ∈ line.speaker.log, saying.bytes <+: saying.op.strings.flatten ∧
    (saying.outcome = .ok () → saying.bytes = saying.op.strings.flatten)
  /-- It sees the end exactly if it took the message that announces it. -/
  ended : line.listener.stream.closed = true ↔
    Fragment.close ∈ line.speaker.roles.take line.taken

/-- As long as the messages are taken for what they are, the listener is given what was
sent. -/
theorem Sound.intact (sound : Sound home line) (unbroken : Unbroken line.speaker.log) :
    line.Intact := by
  obtain ⟨taken, split, heard⟩ := sound.took
  have conserves := sound.conserves
  obtain ⟨a, b, -, -, fair, -⟩ := sound
  have framed : readings 0 line.speaker.said = line.speaker.roles :=
    (framed_iff fair.sound).mpr unbroken
  have count : line.taken = (readings 0 taken).length := by
    rw [Line.taken, split, List.length_append, Nat.add_sub_cancel, length_readings]
  rw [split, readings_append, heard.held] at framed
  refine ⟨fun words later waits => ?_, ?_, fun saying mem => ?_, ?_⟩
  · rw [waits] at framed
    rw [← framed, count, List.getElem?_append_right (Nat.le_refl _), Nat.sub_self, absorb_fst]
    rfl
  · rw [conserves, told, Speaker.said, decode_unbroken fair.sound unbroken]
  · have sound := fair.sound saying mem
    exact ⟨sound.bytes_prefix, fun ok => (sound.returned ok).2⟩
  · rw [← heard.ended, closes_iff, ← framed, count, List.take_left]

/-- Whatever the kernel refuses, to whomever and whenever: the listener took the first of the
messages that were accepted and holds what they say, an operation that failed has a part of
its messages accepted, and each message is taken for what it is exactly if none was accepted
after an operation that is torn. Then the listener is given what was sent. -/
theorem stays_framed (new : New home start) (run : Runs home start final) :
    (∃ taken, final.speaker.said = taken ++ final.waiting ∧
      Heard taken final.listener.stream final.listener.touched) ∧
    (∀ saying ∈ final.speaker.log, saying.Sound) ∧
    (final.Framed ↔ Unbroken final.speaker.log) ∧
    (Unbroken final.speaker.log → final.Intact) := by
  have sound := run.sound new.sound
  have took := sound.took
  have intact := sound.intact
  obtain ⟨a, b, -, -, fair, -⟩ := sound
  exact ⟨took, fair.sound, framed_iff fair.sound, intact⟩

instance (saying : Saying) : Decidable saying.Torn := inferInstanceAs (Decidable (_ ∧ _))

instance (log : List Saying) : Decidable (Unbroken log) :=
  inferInstanceAs (Decidable (log.Pairwise _))

/-! ### A torn operation -/

/-- A speaker whose endpoint is refused as planned performs operations, and the listener
reads what there is. -/
def telling (plan : FaultPlan) (ops : List Op) : Line :=
  (ops.foldl (fun line op => line.speak op) (planned ⟨0⟩ .send plan)).listen (.receiveAvailable 40)

theorem runs_telling (plan : FaultPlan) {ops : List Op}
    (speaks : ∀ op ∈ ops, op.part = .speaker ∧ op.Short) :
    Runs ⟨1⟩ (planned ⟨0⟩ .send plan) (telling plan ops) := by
  have runs : ∀ line, Runs ⟨1⟩ (planned ⟨0⟩ .send plan) line →
      Runs ⟨1⟩ (planned ⟨0⟩ .send plan) (ops.foldl (fun line op => line.speak op) line) := by
    induction ops with
    | nil => exact fun _ run => run
    | cons op ops ih =>
        intro line run
        obtain ⟨speaker, short⟩ := speaks op List.mem_cons_self
        exact ih (fun o mem => speaks o (List.mem_cons_of_mem _ mem)) _ (run.speak speaker short)
  exact (runs _ .refl).listen rfl

theorem short_replicate (byte : UInt8) : (Op.send (List.replicate 30 byte)).Short := by
  change (List.replicate 30 byte).length < Ring.lengthLimit
  rw [List.length_replicate]
  decide

/-- The second of two byte strings is torn, and no message is accepted afterwards. -/
theorem stays_framed_torn : ∃ final : Line,
    New ⟨1⟩ (planned ⟨0⟩ .send [none, none, some .invalidCap]) ∧
    Runs ⟨1⟩ (planned ⟨0⟩ .send [none, none, some .invalidCap]) final ∧
    final.listener.touched = [1, 2, 3] ++ List.replicate 24 7 ∧ final.Framed ∧ final.Intact := by
  let ops : List Op := [.send [1, 2, 3], .send (List.replicate 30 7)]
  have speaks : ∀ op ∈ ops, op.part = .speaker ∧ op.Short := by
    have one : (Op.send [1, 2, 3]).Short := by
      change [1, 2, 3].length < Ring.lengthLimit
      decide
    simp only [ops, List.forall_mem_cons, List.not_mem_nil, false_implies, implies_true, and_true]
    exact ⟨⟨rfl, one⟩, rfl, short_replicate 7⟩
  have run := runs_telling [none, none, some .invalidCap] speaks
  obtain ⟨-, -, framed, intact⟩ := stays_framed (new_planned _ _ _) run
  have unbroken : Unbroken (telling [none, none, some .invalidCap] ops).speaker.log := by
    decide +kernel
  have touched : (telling [none, none, some .invalidCap] ops).listener.touched =
      [1, 2, 3] ++ List.replicate 24 7 := by decide +kernel
  exact ⟨_, new_planned _ _ _, run, touched, framed.mpr unbroken, intact unbroken⟩

/-- A send is torn, and the announcement of the end is accepted after it. The listener takes
that for the last six bytes of the string, and does not see the end. -/
theorem torn_send_hides_close : ∃ final : Line,
    New ⟨1⟩ (planned ⟨0⟩ .send [none, some .invalidCap]) ∧
    Runs ⟨1⟩ (planned ⟨0⟩ .send [none, some .invalidCap]) final ∧
    final.speaker.log.map Saying.accepted =
      [[headWords 4 (List.replicate 30 7)], [closeWords 4]] ∧
    final.waiting = [] ∧ final.listener.stream.closed = false ∧
    final.listener.touched = List.replicate 24 7 ++ List.replicate 6 255 ∧
    final.speaker.roles = [.start 30, .close] ∧ ¬ final.Framed := by
  have speaks : ∀ op ∈ [Op.send (List.replicate 30 7), .close], op.part = .speaker ∧ op.Short := by
    simp only [List.forall_mem_cons, List.not_mem_nil, false_implies, implies_true, and_true]
    exact ⟨⟨rfl, short_replicate 7⟩, rfl, trivial⟩
  refine ⟨_, new_planned _ _ _, runs_telling [none, some .invalidCap] speaks, ?_⟩
  unfold Framed
  decide +kernel

end Line

end Stream

end Conduit

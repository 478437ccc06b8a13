/-
# Reading again after a failure

A read may take several messages, and the kernel may refuse the next one after some of their
bytes have reached the buffer. The read fails then and reports nothing, and the bytes are
gone from the stream: the next read goes on behind them. `reads_conserve` says that this is
the only way in which bytes are lost to a caller who simply reads again: the reads that
returned report the stream without a gap exactly if no read failed that had moved bytes.
`retry_skips_bytes` is a run in which one did.
-/

import Conduit.Proofs.Stream.Line
import Conduit.Proofs.Stream.Sayings
import Mathlib.Data.List.Basic

namespace Conduit

namespace Stream

/-- The bytes that an operation reported: so many from the front of its buffer, if it
returned. -/
def Receipt.reported (receipt : Receipt) : List UInt8 :=
  match receipt.outcome with
  | .ok count => receipt.filled.take count
  | .error _ => []

/-- The bytes that reached the buffer of an operation that did not return. -/
def Receipt.lost (receipt : Receipt) : List UInt8 :=
  match receipt.outcome with
  | .ok _ => []
  | .error _ => receipt.filled

/-- The bytes that the operations of a listener reported. -/
def Listener.reported (q : Listener) : List UInt8 := q.receipts.flatMap Receipt.reported

/-- The bytes that a speaker was asked to send. -/
def Speaker.sent (p : Speaker) : List UInt8 := p.log.flatMap (·.op.strings.flatten)

namespace Line

variable {home : Cap} {start final : Line}

/-- What was reported is the first part of the stream, and with what is held and what is on
the way it is all of it. -/
def Gapless (line : Line) : Prop :=
  line.listener.reported <+: line.told ∧
    line.listener.reported ++ line.listener.stream.backlog ++ line.onTheWay = line.told

theorem filled_eq {receipt : Receipt}
    (counted : ∀ count, receipt.outcome = .ok count → count = receipt.filled.length) :
    receipt.filled = receipt.reported ++ receipt.lost := by
  unfold Receipt.reported Receipt.lost
  cases outcome : receipt.outcome with
  | ok count => simp only [counted count outcome, List.take_length, List.append_nil]
  | error stop => rfl

theorem length_touched {q : Listener} (counts : q.Counts) :
    q.touched.length = q.reported.length + (q.receipts.flatMap Receipt.lost).length := by
  unfold Listener.touched Listener.reported
  unfold Listener.Counts at counts
  generalize q.receipts = receipts at counts
  induction receipts with
  | nil => rfl
  | cons receipt receipts ih =>
      have parts := congrArg List.length (filled_eq (counts receipt List.mem_cons_self))
      have rest := ih fun r mem => counts r (List.mem_cons_of_mem _ mem)
      rw [List.length_append] at parts
      simp only [List.flatMap_cons, List.length_append]
      omega

/-- What reached the buffers is what was reported exactly if none of it was lost. -/
theorem touched_eq_reported {q : Listener} (counts : q.Counts) :
    q.touched = q.reported ↔ ∀ receipt ∈ q.receipts, receipt.lost = [] := by
  constructor
  · intro same
    have lengths := length_touched counts
    rw [same, Nat.left_eq_add, List.length_eq_zero_iff] at lengths
    exact List.flatMap_eq_nil_iff.mp lengths
  · intro none
    refine List.flatMap_congr fun receipt mem => ?_
    rw [filled_eq (counts receipt mem), none receipt mem, List.append_nil]

/-- Whatever the kernel refuses, to whomever and whenever: what an operation reports is what
reached its buffer; what reached the buffers, what is held and what is on the way is the
stream; and the operations that returned reported it without a gap exactly if none that
failed had moved bytes. -/
theorem reads_conserve (new : New home start) (run : Runs home start final) :
    final.listener.Counts ∧
    final.listener.touched ++ final.listener.stream.backlog ++ final.onTheWay = final.told ∧
    (final.Gapless ↔ ∀ receipt ∈ final.listener.receipts, receipt.lost = []) ∧
    ((∀ saying ∈ final.speaker.log, saying.outcome = .ok ()) →
      final.told = final.speaker.sent) := by
  have sound := run.sound new.sound
  have conserves := sound.conserves
  obtain ⟨a, b, -, -, fair, -, counts⟩ := sound
  refine ⟨counts, conserves, ?_, fun returned => ?_⟩
  · rw [← touched_eq_reported counts]
    constructor
    · rintro ⟨-, whole⟩
      rw [← conserves, List.append_cancel_right_eq, List.append_cancel_right_eq] at whole
      exact whole.symm
    · intro same
      rw [same] at conserves
      exact ⟨⟨_, (List.append_assoc _ _ _).symm.trans conserves⟩, conserves⟩
  · have unbroken : Unbroken final.speaker.log := List.pairwise_of_forall_mem_list
      fun saying mem _ _ torn => ((fair.sound saying mem).returned (returned saying mem)).1.elim torn
    rw [told, Speaker.said, decode_unbroken fair.sound unbroken]
    exact List.flatMap_congr fun saying mem =>
      ((fair.sound saying mem).returned (returned saying mem)).2

/-! ### Two reads -/

/-- A listener whose endpoint is refused as planned reads twice after a byte string of thirty
bytes was sent to it, and is given room for so many bytes. -/
def twice (plan : FaultPlan) (first second : Nat) : Line :=
  (((planned ⟨1⟩ .recv plan).speak (.send (List.ofFn fun i : Fin 30 => UInt8.ofNat i))).listen
    (.receiveAvailable first)).listen (.receiveAvailable second)

theorem runs_twice (plan : FaultPlan) (first second : Nat) :
    Runs ⟨1⟩ (planned ⟨1⟩ .recv plan) (twice plan first second) := by
  have short : (Op.send (List.ofFn fun i : Fin 30 => UInt8.ofNat i)).Short := by
    change (List.ofFn _).length < Ring.lengthLimit
    rw [List.length_ofFn]
    decide
  exact ((Runs.speak .refl rfl short).listen rfl).listen rfl

/-- The first read is refused before it took a message, and the second one gets all bytes. -/
theorem reads_conserve_refused : ∃ final : Line,
    New ⟨1⟩ (planned ⟨1⟩ .recv [some .invalidCap]) ∧
    Runs ⟨1⟩ (planned ⟨1⟩ .recv [some .invalidCap]) final ∧
    final.listener.receipts.map Receipt.filled =
      [[], List.ofFn fun i : Fin 30 => UInt8.ofNat i] ∧
    final.Gapless := by
  obtain ⟨-, -, gapless, -⟩ := reads_conserve (new_planned _ _ _)
    (runs_twice [some .invalidCap] 40 40)
  have filled : (twice [some .invalidCap] 40 40).listener.receipts.map Receipt.filled =
      [[], List.ofFn fun i : Fin 30 => UInt8.ofNat i] := by decide +kernel
  have none : ∀ receipt ∈ (twice [some .invalidCap] 40 40).listener.receipts,
      receipt.lost = [] := by decide +kernel
  exact ⟨_, new_planned _ _ _, runs_twice _ 40 40, filled, gapless.mpr none⟩

/-- The first read is refused its second message after the bytes of the first one reached
the buffer; the second read goes on behind them. -/
theorem retry_skips_bytes : ∃ final : Line,
    New ⟨1⟩ (planned ⟨1⟩ .recv [none, some .invalidCap]) ∧
    Runs ⟨1⟩ (planned ⟨1⟩ .recv [none, some .invalidCap]) final ∧
    final.speaker.sent = List.ofFn (fun i : Fin 30 => UInt8.ofNat i) ∧
    final.told = final.speaker.sent ∧
    final.listener.receipts.map Receipt.filled =
      [List.ofFn fun i : Fin 24 => UInt8.ofNat i, [24]] ∧
    final.listener.reported = [24] ∧ ¬ final.listener.reported <+: final.speaker.sent := by
  refine ⟨_, new_planned _ _ _, runs_twice _ 40 1, ?_⟩
  decide +kernel

end Line

end Stream

end Conduit

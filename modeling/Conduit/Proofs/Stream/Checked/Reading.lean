/-
# Reading a stream with every step checked

What a receiving end does with machine words and slices: messages are received into a scratch
buffer of the largest width, their bytes are unpacked into another one, lengths are subtracted,
and ranges of the caller's buffer are filled. Here all of this is checked, as in
`Conduit.Proofs.Checked`. Where nothing stands in the way of receiving, whatever the
peer sends, the checked operation is the plain one (`receiveAvailableChecked_eq`), so none of
the checks can fail.
-/

import Conduit.Proofs.Stream.Checked.Ring
import Conduit.Proofs.Stream.Receptive

namespace Conduit

open Checked

/-! ### Unpacking into a buffer -/

/-- Fills a buffer from the bytes of words, as far as both go. -/
def Word.unpackInto : List UInt64 → List UInt8 → Except Panic (List UInt8)
  | [], out => .ok out
  | _ :: _, [] => .ok []
  | word :: rest, b :: out => do
      let chunk ← slice (toBytes word) 0 (min size (b :: out).length)
      let more ← unpackInto rest ((b :: out).drop size)
      return chunk ++ more

theorem Word.unpackInto_eq (words : List UInt64) (out : List UInt8)
    (fits : out.length ≤ words.length * size) :
    unpackInto words out = .ok ((unpack words).take out.length) := by
  induction words generalizing out with
  | nil =>
      rw [List.length_nil, Nat.zero_mul, Nat.le_zero, List.length_eq_zero_iff] at fits
      rw [fits]
      rfl
  | cons word rest ih =>
      cases out with
      | nil => rfl
      | cons b out =>
          rw [List.length_cons, List.length_cons, Nat.succ_mul] at fits
          have chunk : slice (toBytes word) 0 (min size (b :: out).length) =
              .ok ((toBytes word).take (b :: out).length) := by
            rw [slice_ok (Nat.zero_le _) (by rw [length_toBytes]; omega), List.drop_zero,
              ← length_toBytes word, Nat.min_comm]
            exact congrArg Except.ok List.take_eq_take_min.symm
          have later := ih ((b :: out).drop size) (by rw [List.length_drop, List.length_cons]; omega)
          have joined : unpack (word :: rest) = toBytes word ++ unpack rest := rfl
          rw [joined, List.take_append, length_toBytes]
          rw [List.length_drop] at later
          simp only [unpackInto, chunk, later, bind, Except.bind]
          rfl

namespace Stream

/-! ### A receiving end -/

/-- The largest number of words in a message, which is the length of the scratch buffers. -/
def maxWords : Nat := SlotChannel.maxSlotBytes / Word.size

/-- Stores received bytes in the ring, and parks those that do not fit. -/
def stashChecked (s : Stream) (bytes : List UInt8) : Except Panic Stream := do
  let (written, ring) ← if s.parked.isEmpty then s.ring.writeChecked bytes else .ok (0, s.ring)
  if written < bytes.length then
    let rest ← slice bytes written bytes.length
    return { s with ring, parked := s.parked ++ rest }
  else return { s with ring }

/-- Adds the bytes that a message holds for the current logical message. -/
def takeChecked (s : Stream) (payload : List UInt64) : Except Panic Stream := do
  let count := min s.bytesLeft.toNat (payload.length * Word.size)
  let scratch ← slice (List.replicate (maxWords * Word.size) 0) 0 count
  let bytes ← Word.unpackInto payload scratch
  let left ← minus s.bytesLeft.toNat count
  { s with bytesLeft := UInt64.ofNat left }.stashChecked bytes

/-- Adds what one message of the transport holds. -/
def absorbChecked (s : Stream) (words : List UInt64) : Except Panic (Fragment × Stream) :=
  if s.bytesLeft = 0 then
    match words with
    | [] => .error .outOfRange
    | mark :: payload =>
        if mark = closeMark then .ok (.close, { s with closed := true })
        else do
          let s ← { s with bytesLeft := mark }.takeChecked payload
          return (.start mark, s)
  else do
    let s ← s.takeChecked words
    return (.continuation, s)

/-- Moves parked bytes into the ring while there are any and some fit, within a bound. -/
def flushWithin : (bound : Nat) → Stream → Except Panic Stream
  | 0, s => .ok s
  | bound + 1, s =>
      if s.parked.isEmpty then .ok s
      else do
        if 0 < (← s.ring.freeChecked) then
          let (moved, ring) ← s.ring.writeChecked s.parked
          let rest ← slice s.parked moved s.parked.length
          flushWithin bound { s with ring, parked := rest }
        else return s

/-- Moves parked bytes into the ring. Each round moves one at least. -/
def unparkChecked (s : Stream) : Except Panic Stream := flushWithin (s.parked.length + 1) s

/-- Takes at most `limit` received bytes out, within a bound on the rounds. -/
def drainWithinChecked : (bound limit : Nat) → Stream → Except Panic (List UInt8 × Stream)
  | 0, _, s => .ok ([], s)
  | bound + 1, limit, s => do
      let (count, out, ring) ← s.ring.readChecked (List.replicate limit 0)
      let bytes ← slice out 0 count
      let s := { s with ring }
      if count = limit ∨ s.parked.isEmpty then return (bytes, s)
      else
        let (more, s) ← drainWithinChecked bound (← minus limit count) (← s.unparkChecked)
        return (bytes ++ more, s)

variable {σ : Type}

/-- Takes one message from the transport into a scratch buffer, if one is waiting. -/
def pullChecked : Task Stream σ (Option Fragment) := do
  if !(← onTransport Transport.canReceive) then return none
  let width := (← Task.self).transport.width
  let scratch ← Task.orPanic (slice (List.replicate maxWords 0) 0 width)
  match ← onTransport Transport.receive with
  | none => return none
  | some message =>
      let words ← Task.orPanic (paste scratch 0 scratch.length message.words)
      let (fragment, s) ← Task.orPanic ((← Task.self).absorbChecked words)
      Task.setSelf s
      return some fragment

end Stream

namespace Reader

variable {σ : Type}

/-- Fills the buffer from the received bytes, up to a length. -/
def drainChecked (r : Reader) (upTo : Nat) : Except Panic Reader := do
  let limit ← minus upTo r.filled.length
  let (bytes, stream) ← Stream.drainWithinChecked (limit + 1) limit r.stream
  let _ ← plus r.filled.length bytes.length
  return { stream, filled := r.filled ++ bytes }

/-- One round of filling. -/
def fillRoundChecked (upTo : Nat) : Task Reader σ (Option Unit) := do
  Task.setSelf (← Task.orPanic ((← Task.self).drainChecked upTo))
  let r ← Task.self
  if r.filled.length = upTo ∨ r.stream.closed then return some ()
  match ← onStream Stream.pullChecked with
  | none => return some ()
  | some _ => return none

/-- Fills the buffer up to a length, or as far as messages are waiting. -/
def fillChecked (upTo : Nat) : Task Reader σ Unit := do
  let now ← get
  let backlog := now.self.stream.transport.backlogLimit now.scene.machine
  Task.repeatWithin ((now.turns.length + 1) * (backlog + 2)) (fillRoundChecked upTo)

/-- Takes what there is, and gives the number of bytes in the buffer. -/
def receiveAvailableChecked (length : Nat) : Task Reader σ Nat := do
  fillChecked length
  return (← Task.self).filled.length

end Reader

namespace Task

variable {δ σ α β : Type}

/-- Tasks that do the same go on in the same way. -/
theorem bind_congr {task task' : Task δ σ α} {now : Moment δ σ} (same : task now = task' now)
    (next : α → Task δ σ β) : (task >>= next) now = (task' >>= next) now := by
  change EStateM.bind task next now = EStateM.bind task' next now
  simp only [EStateM.bind, same]

/-- Rounds that do the same, wherever they are repeated, repeat the same. -/
theorem repeatWithin_congr {round round' : Task δ σ (Option α)} (invariant : Moment δ σ → Prop)
    (same : ∀ now, invariant now → round now = round' now)
    (keeps : ∀ now now', invariant now → round' now = .ok none now' → invariant now')
    (bound : Nat) {now : Moment δ σ} (holds : invariant now) :
    repeatWithin bound round now = repeatWithin bound round' now := by
  induction bound generalizing now with
  | zero => rfl
  | succ bound ih =>
      rw [repeatWithin, repeatWithin, bind_congr (same now holds)]
      cases ran : round' now with
      | error stop now' => rw [bind_error ran, bind_error ran]
      | ok answer now' =>
          rw [bind_ok ran, bind_ok ran]
          cases answer with
          | some a => rfl
          | none => exact ih (keeps now now' holds ran)

end Task

/-! ### No check fails -/

namespace Ring

variable {r : Ring}

/-- Writing nothing changes nothing. -/
theorem write_none (valid : r.Valid) {data : List UInt8} (none : min data.length r.free = 0) :
    r.write data = (0, r) := by
  simp only [write, none, List.take_zero, fill, Nat.add_zero, Nat.mod_eq_of_lt valid.writeAt_lt]

/-- After writing there is room for what was left out only if nothing was. -/
theorem free_write (valid : r.Valid) (data : List UInt8) :
    (r.write data).2.free = r.free - min data.length r.free := by
  have size := congrArg List.length (toList_write valid data)
  rw [length_toList, List.length_append, length_toList, List.length_take] at size
  have storage : (r.write data).2.storage.size = r.storage.size := size_fill _ _ _
  have count : (r.write data).1 = min data.length r.free := rfl
  unfold free capacity at *
  omega

end Ring

namespace Stream

variable {s : Stream}

theorem stashChecked_eq (sized : s.ring.Sized) (bytes : List UInt8) :
    s.stashChecked bytes = .ok (s.stash bytes) := by
  unfold stashChecked stash
  cases parked : s.parked with
  | nil =>
      have written : (s.ring.write bytes).1 ≤ bytes.length := Nat.min_le_left _ _
      simp only [List.isEmpty_nil, if_true, Ring.writeChecked_eq sized, bind, Except.bind]
      by_cases some : (s.ring.write bytes).1 < bytes.length
      · rw [if_pos some, slice_ok written (Nat.le_refl _), List.take_length]
        rfl
      · rw [if_neg some, List.drop_of_length_le (Nat.not_lt.mp some), ← parked]
        rfl
  | cons b rest =>
      simp only [List.isEmpty_cons, Bool.false_eq_true, if_false, bind, Except.bind]
      by_cases some : 0 < bytes.length
      · rw [if_pos some, slice_ok (Nat.zero_le _) (Nat.le_refl _), List.take_length, List.drop_zero]
        rfl
      · rw [if_neg some, List.length_eq_zero_iff.mp (Nat.eq_zero_of_not_pos some), List.append_nil,
          ← parked]
        rfl

theorem takeChecked_eq (sized : s.ring.Sized) {payload : List UInt64}
    (fits : payload.length ≤ maxWords) : s.takeChecked payload = .ok (s.take payload) := by
  have room : payload.length * Word.size ≤ maxWords * Word.size := Nat.mul_le_mul_right _ fits
  let count := min s.bytesLeft.toNat (payload.length * Word.size)
  have count_le : count ≤ s.bytesLeft.toNat ∧ count ≤ payload.length * Word.size := by omega
  have scratch : slice (List.replicate (maxWords * Word.size) (0 : UInt8)) 0 count =
      .ok (List.replicate count 0) := by
    rw [slice_ok (Nat.zero_le _) (by rw [List.length_replicate]; omega), List.drop_zero,
      List.take_replicate, Nat.min_eq_left (Nat.le_trans count_le.2 room)]
  have bytes : Word.unpackInto payload (List.replicate count 0) =
      .ok ((Word.unpack payload).take count) := by
    rw [Word.unpackInto_eq _ _ (by rw [List.length_replicate]; exact count_le.2),
      List.length_replicate]
  have left : minus s.bytesLeft.toNat count = .ok (s.bytesLeft.toNat - count) :=
    minus_ok count_le.1
  have same : UInt64.ofNat (s.bytesLeft.toNat - count) = s.bytesLeft - UInt64.ofNat count := by
    rw [UInt64.ofNat_sub count_le.1, UInt64.ofNat_toNat]
  simp only [takeChecked, bind, Except.bind]
  simp only [show min s.bytesLeft.toNat (payload.length * Word.size) = count from rfl, scratch,
    bytes, left, same]
  exact stashChecked_eq (s := { s with bytesLeft := s.bytesLeft - UInt64.ofNat count }) sized _

theorem absorbChecked_eq (sized : s.ring.Sized) {words : List UInt64} (some : 1 ≤ words.length)
    (fits : words.length ≤ maxWords) : s.absorbChecked words = .ok (s.absorb words) := by
  cases words with
  | nil => cases some
  | cons mark payload =>
      have headed : (mark :: payload).headD 0 = mark := rfl
      unfold absorbChecked
      by_cases between : s.bytesLeft = 0
      · rw [if_pos between]
        by_cases close : mark = closeMark
        · rw [absorb_mark between (headed.trans close)]
          exact if_pos close
        · have taken := takeChecked_eq (s := { s with bytesLeft := mark }) sized
            (Nat.le_of_succ_le fits)
          rw [absorb_length between (fun same => close (headed.symm.trans same))]
          simp only [if_neg close, taken, bind, Except.bind]
          rfl
      · rw [if_neg between, absorb, if_neg between]
        simp only [takeChecked_eq sized fits, bind, Except.bind]
        rfl

/-- One round moves all that fits. -/
theorem unparkChecked_eq (sized : s.ring.Sized) : s.unparkChecked = .ok s.unpark := by
  unfold unparkChecked unpark
  cases parked : s.parked with
  | nil =>
      rw [Ring.write_none sized.toValid (Nat.zero_min _)]
      simp only [List.length_nil, flushWithin, parked, List.isEmpty_nil, if_true, List.drop_nil]
      rw [← parked]
  | cons b rest =>
      rw [List.length_cons, flushWithin]
      simp only [parked, List.isEmpty_cons, Bool.false_eq_true, if_false,
        Ring.freeChecked_eq sized, bind, Except.bind]
      by_cases space : 0 < s.ring.free
      · have moved : (s.ring.write (b :: rest)).1 ≤ (b :: rest).length := Nat.min_le_left _ _
        simp only [if_pos space, Ring.writeChecked_eq sized, slice_ok moved (Nat.le_refl _),
          List.take_length]
        rw [flushWithin]
        have after := sized.after_write (b :: rest)
        have free := Ring.free_write sized.toValid (b :: rest)
        have count : (s.ring.write (b :: rest)).1 = min (b :: rest).length s.ring.free := rfl
        split
        · rfl
        · rename_i more
          rw [List.isEmpty_iff, List.drop_eq_nil_iff] at more
          have full : (s.ring.write (b :: rest)).2.free = 0 := by omega
          simp only [Ring.freeChecked_eq after, full, bind, Except.bind, Nat.lt_irrefl, if_false]
          rfl
      · have none : min (b :: rest).length s.ring.free = 0 := by omega
        rw [if_neg space, Ring.write_none sized.toValid none, List.drop_zero, ← parked]
        rfl

theorem drainWithinChecked_eq (sized : s.ring.Sized) (bound limit : Nat) :
    drainWithinChecked bound limit s = .ok (drainWithin bound limit s) := by
  induction bound generalizing s limit with
  | zero => rfl
  | succ bound ih =>
      have length : (s.ring.read limit).1.length ≤ limit := by
        rw [Ring.read, List.length_map, List.length_range]
        exact Nat.min_le_left _ _
      have got : slice ((s.ring.read limit).1 ++
          (List.replicate limit (0 : UInt8)).drop (s.ring.read limit).1.length) 0
            (s.ring.read limit).1.length = .ok (s.ring.read limit).1 := by
        rw [slice_ok (Nat.zero_le _) (by rw [List.length_append]; omega), List.drop_zero,
          List.take_left]
      have after := sized.after_read limit
      have unparked := unparkChecked_eq (s := { s with ring := (s.ring.read limit).2 }) after
      have rest := ih (s := ({ s with ring := (s.ring.read limit).2 } : Stream).unpark)
        (after.after_write _) (limit - (s.ring.read limit).1.length)
      rw [drainWithinChecked, drainWithin]
      simp only [Ring.readChecked_eq sized, List.length_replicate, got, bind, Except.bind]
      split
      · rfl
      · simp only [minus_ok length, unparked, rest]
        rfl

/-! ### Reading from a peer that may send anything -/

/-- A receiving end whose ring can be allocated, and whose messages fit the scratch buffers. -/
structure Sized (s : Stream) : Prop where
  ring : s.ring.Sized
  width : s.transport.width ≤ maxWords

variable {σ : Type} {m : Machine}

/-- A message fills the scratch buffer as far as it is used. -/
theorem pullChecked_eq (receptive : s.transport.Receptive m) (sized : s.Sized) (others : σ)
    (turns : List (Turn σ)) :
    pullChecked ⟨s, ⟨m, others⟩, turns⟩ = Stream.pull ⟨s, ⟨m, others⟩, turns⟩ := by
  have can : onTransport Transport.canReceive ⟨s, ⟨m, others⟩, turns⟩ =
      .ok (!(s.transport.waiting m).isEmpty) ⟨s, ⟨m, others⟩, turns⟩ :=
    onTransport_ok (receptive.canReceive others turns)
  have scratch : slice (List.replicate maxWords (0 : UInt64)) 0 s.transport.width =
      .ok (List.replicate s.transport.width 0) := by
    rw [slice_ok (Nat.zero_le _) (by rw [List.length_replicate]; exact sized.width),
      List.drop_zero, List.take_replicate, Nat.min_eq_left sized.width]
  unfold pullChecked Stream.pull
  rw [Task.bind_ok can, Task.bind_ok can]
  cases waits : s.transport.waiting m with
  | nil => rfl
  | cons words rest =>
      have full : words.length = s.transport.width :=
        receptive.full words (waits ▸ List.mem_cons_self)
      have wide : 1 ≤ words.length := full ▸ receptive.one_le_width
      obtain ⟨t, m', -, -, -, -, received⟩ := receptive.receive waits
      obtain ⟨cap, received⟩ := received σ others turns
      have taken : onTransport Transport.receive ⟨s, ⟨m, others⟩, turns⟩ =
          .ok (some ⟨words, cap⟩) ⟨{ s with transport := t }, ⟨m', others⟩, turns⟩ :=
        onTransport_ok received
      have copied : paste (List.replicate s.transport.width (0 : UInt64)) 0
          (List.replicate s.transport.width (0 : UInt64)).length words = .ok words := by
        rw [paste_ok (Nat.le_refl _) (by rw [List.length_replicate, Nat.zero_add, full]),
          List.take_zero, List.drop_length, List.nil_append, List.append_nil]
      have absorbed := absorbChecked_eq (s := { s with transport := t }) sized.ring wide
        (full ▸ sized.width)
      simp only [List.isEmpty_cons, Bool.not_false, Bool.not_true, Bool.false_eq_true, if_false,
        Task.self_bind, scratch, Task.orPanic_ok, pure_bind]
      rw [Task.bind_ok taken, Task.bind_ok taken]
      simp only [copied, Task.orPanic_ok, pure_bind, Task.self_bind, absorbed]

/-- The ring keeps its length, and the transport its width. -/
theorem Fills.sized {m₀ : Machine} {s₀ : Stream} {upTo : Nat} {r : Reader}
    {took : List (List UInt64)} (fills : Fills m₀ s₀ upTo m r took) (sized : s₀.Sized) :
    r.stream.Sized :=
  ⟨⟨fills.valid, fills.length.symm ▸ sized.ring.short⟩, fills.width.symm ▸ sized.width⟩

end Stream

namespace Reader

variable {σ : Type} {r : Reader} {upTo : Nat}

/-- The buffer has room for what is drained into it. -/
theorem drainChecked_eq (sized : r.stream.ring.Sized) (within : r.filled.length ≤ upTo)
    (short : upTo < Checked.limit) : r.drainChecked upTo = .ok (r.drain upTo) := by
  have drained := Stream.drainWithinChecked_eq sized (upTo - r.filled.length + 1)
    (upTo - r.filled.length)
  have count := (Reader.drain_within sized.toValid within).1
  have sum : plus r.filled.length (Stream.drainWithin (upTo - r.filled.length + 1)
      (upTo - r.filled.length) r.stream).1.length = .ok (r.filled.length + (Stream.drainWithin
        (upTo - r.filled.length + 1) (upTo - r.filled.length) r.stream).1.length) := by
    refine plus_ok (Nat.lt_of_le_of_lt ?_ short)
    rw [Reader.drain, List.length_append] at count
    exact count
  simp only [drainChecked, minus_ok within, drained, sum, bind, Except.bind]
  rfl

variable {m₀ m : Machine} {s₀ : Stream} {took : List (List UInt64)}

theorem fillRoundChecked_eq (fills : Stream.Fills m₀ s₀ upTo m r took) (sized : s₀.Sized)
    (short : upTo < Checked.limit) (others : σ) (turns : List (Turn σ)) :
    fillRoundChecked upTo ⟨r, ⟨m, others⟩, turns⟩ = fillRound upTo ⟨r, ⟨m, others⟩, turns⟩ := by
  have drained := fills.drain
  have pulled := Stream.pullChecked_eq drained.receptive (drained.sized sized) others turns
  have onward : onStream Stream.pullChecked ⟨r.drain upTo, ⟨m, others⟩, turns⟩ =
      onStream Stream.pull ⟨r.drain upTo, ⟨m, others⟩, turns⟩ := by
    simp only [onStream, Task.within, pulled]
  unfold fillRoundChecked fillRound
  simp only [Task.self_bind, drainChecked_eq (fills.sized sized).ring fills.within short, Task.orPanic_ok,
    pure_bind, Task.setSelf_bind, Task.modifySelf_bind]
  split
  · rfl
  · exact Task.bind_congr onward _

/-- Whatever the peer sent, taking what there is never fails a check: no difference is
negative, no sum exceeds a machine word, and no range lies outside its slice. -/
theorem receiveAvailableChecked_eq (receptive : s₀.transport.Receptive m₀) (sized : s₀.Sized)
    (short : upTo < Checked.limit) (others : σ) (turns : List (Turn σ)) :
    receiveAvailableChecked upTo ⟨{ stream := s₀ }, ⟨m₀, others⟩, turns⟩ =
      receiveAvailable upTo ⟨{ stream := s₀ }, ⟨m₀, others⟩, turns⟩ := by
  let filling (now : Moment Reader σ) : Prop :=
    ∃ took, Stream.Fills m₀ s₀ upTo now.scene.machine now.self took
  refine Task.bind_congr (Task.repeatWithin_congr filling ?_ ?_ _ ?_) _
  · rintro ⟨r, ⟨m, others⟩, turns⟩ ⟨took, fills⟩
    exact fillRoundChecked_eq fills sized short others turns
  · rintro ⟨r, ⟨m, others⟩, turns⟩ now' ⟨took, fills⟩ ran
    rcases fills.fillRound with ⟨r', -, -, ends⟩ | ⟨r', m', words, fills', -, goes⟩
    · rw [ends σ others turns] at ran
      cases ran
    · rw [goes σ others turns] at ran
      cases ran
      exact ⟨_, fills'⟩
  · exact ⟨[], .start receptive sized.ring.toValid upTo⟩

end Reader

end Conduit

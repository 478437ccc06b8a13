/-
# Sizes that can be used

A configuration is checked as a whole before anything is made of it, and whatever is made of it
checks its own sizes again. The two agree (`Config.sizes_agree`): from sizes that pass the check
both ends of a channel over shared memory, streams and a kernel can be made, and what can be made
of sizes is not refused for them. A channel over a frame asks for a frame that can be halved and
for whole slots in both halves, the configuration for a frame that two slots divide; both say
`SlotChannel.Divides`.

Neither way computes anything that overflows or divides by zero, whatever the sizes are. The
steps are computed with checks here, as in `Conduit.Proofs.Checked`.
-/

import Conduit.Config
import Conduit.Proofs.Call.Shared.Checked
import Conduit.Proofs.Memory.Windows

namespace Conduit

open Checked

/-! ### A channel over a frame -/

namespace SlotChannel

/-- A size of slots that whole slots of fill both halves of a frame, one at least in each. -/
structure Divides (slotBytes frameBytes : Nat) : Prop where
  valid : validSlotBytes slotBytes = true
  pos : 0 < frameBytes
  dvd : 2 * slotBytes ∣ frameBytes

/-- The end of a channel that sends on one half of a view and receives on the other. -/
def onHalves (v : View) (slotBytes : Nat) (firstHalf : Bool) : SlotChannel :=
  let low : View := ⟨v.block, v.start, v.words / 2⟩
  let high : View := ⟨v.block, v.start + v.words / 2, v.words / 2⟩
  { sendPane := if firstHalf then low else high
    recvPane := if firstHalf then high else low
    slotWords := slotBytes / Word.size
    slots := v.bytes / (2 * slotBytes) }

variable {slotBytes frameBytes : Nat} {v low high : View} {firstHalf : Bool} {c : SlotChannel}

theorem validSlotBytes_iff :
    validSlotBytes slotBytes = true ↔ 8 ∣ slotBytes ∧ 16 ≤ slotBytes ∧ slotBytes ≤ 256 := by
  simp only [validSlotBytes, Bool.and_eq_true, beq_iff_eq, decide_eq_true_eq]
  unfold maxSlotBytes Word.size
  constructor
  · rintro ⟨⟨aligned, room⟩, small⟩
    exact ⟨Nat.dvd_of_mod_eq_zero aligned, by omega, small⟩
  · rintro ⟨aligned, room, small⟩
    exact ⟨⟨Nat.mod_eq_zero_of_dvd aligned, by omega⟩, small⟩

/-- The words of a slot, and the number of slots in each half. -/
theorem Divides.slots (divides : Divides slotBytes frameBytes) :
    ∃ words slots, slotBytes = words * 8 ∧ 0 < words ∧ 0 < slots ∧
      frameBytes = slots * words * 2 * 8 := by
  obtain ⟨⟨words, rfl⟩, room, -⟩ := validSlotBytes_iff.mp divides.valid
  obtain ⟨slots, rfl⟩ := divides.dvd
  have count : 0 < slots := Nat.pos_of_mul_pos_left divides.pos
  exact ⟨words, slots, Nat.mul_comm 8 words, by omega, count, by ring⟩

/-- Two panes of equally many whole slots, one at least, are enough for an end. -/
theorem create_of_whole {words slots : Nat} (valid : validSlotBytes (words * 8) = true)
    (pos : 0 < slots * words) (lowWords : low.words = slots * words)
    (highWords : high.words = slots * words) :
    create (words * 8) low high = .ok { sendPane := low, recvPane := high, slotWords := words,
                                        slots } := by
  have full : 0 < words := Nat.pos_of_mul_pos_left pos
  have size : slots * words * 8 = slots * (words * 8) := Nat.mul_assoc ..
  have count : slots * (words * 8) / (words * 8) = slots := Nat.mul_div_cancel _ (by omega)
  have width : words * 8 / Word.size = words := Nat.mul_div_cancel _ (by decide)
  have some : (slots * words == 0) = false := beq_eq_false_iff_ne.mpr (Nat.ne_of_gt pos)
  simp [create, View.isEmpty, View.bytes, valid, lowWords, highWords, some, size, count, width]

/-- A view of an even number of words has two halves of one length, and no other has halves. -/
theorem splitAt_half_iff : v.splitAt (v.bytes / 2) = some (low, high) ↔
    2 ∣ v.words ∧ low = ⟨v.block, v.start, v.words / 2⟩ ∧
      high = ⟨v.block, v.start + v.words / 2, v.words / 2⟩ := by
  have bytes : v.bytes = v.words * 8 := rfl
  rw [View.splitAt_eq, Option.ite_none_right_eq_some]
  constructor
  · rintro ⟨⟨aligned, -⟩, halves⟩
    obtain ⟨rfl, rfl⟩ := Prod.mk.inj (Option.some.inj halves)
    have middle : v.bytes / 2 / 8 = v.words / 2 := by omega
    have rest : v.words - v.words / 2 = v.words / 2 := by omega
    exact ⟨by omega, by rw [middle], by rw [middle, rest]⟩
  · rintro ⟨even, rfl, rfl⟩
    have middle : v.bytes / 2 / 8 = v.words / 2 := by omega
    have rest : v.words - v.words / 2 = v.words / 2 := by omega
    exact ⟨by omega, by rw [middle, rest]⟩

/-- Of a frame that slots divide, both ends of a channel can be made. -/
theorem overHalves_ok (divides : Divides slotBytes v.bytes) (firstHalf : Bool) :
    overHalves v slotBytes firstHalf = .ok (onHalves v slotBytes firstHalf) := by
  have valid := divides.valid
  obtain ⟨words, slots, rfl, full, filled, size⟩ := divides.slots
  have length : v.words = slots * words * 2 := Nat.eq_of_mul_eq_mul_right (by decide) size
  have half : v.words / 2 = slots * words := by omega
  have pos : 0 < slots * words := Nat.mul_pos filled full
  have split := splitAt_half_iff.mpr ⟨show 2 ∣ v.words by omega, rfl, rfl⟩
  have width : words * 8 / Word.size = words := Nat.mul_div_cancel _ (by decide)
  have count : v.bytes / (2 * (words * 8)) = slots := by
    rw [size, show slots * words * 2 * 8 = slots * (2 * (words * 8)) by ring]
    exact Nat.mul_div_cancel _ (by omega)
  rw [overHalves, split, onHalves, width, count]
  cases firstHalf with
  | true => exact create_of_whole valid pos half half
  | false => exact create_of_whole valid pos half half

/-- A channel that was made over the halves of a frame has slots that divide it. -/
theorem divides_of_overHalves (made : overHalves v slotBytes firstHalf = .ok c) :
    Divides slotBytes v.bytes := by
  unfold overHalves at made
  cases split : v.splitAt (v.bytes / 2) with
  | none =>
      rw [split] at made
      cases made
  | some halves =>
      obtain ⟨low, high⟩ := halves
      obtain ⟨even, rfl, rfl⟩ := splitAt_half_iff.mp split
      rw [split] at made
      obtain ⟨sendPane, recvPane, length, created⟩ : ∃ sendPane recvPane : View,
          sendPane.words = v.words / 2 ∧ create slotBytes sendPane recvPane = .ok c := by
        cases firstHalf with
        | true => exact ⟨_, _, rfl, made⟩
        | false => exact ⟨_, _, rfl, made⟩
      have valid := valid_of_create created
      obtain ⟨slots, pos, room, words, -, -⟩ := create_ok created
      obtain ⟨⟨count, rfl⟩, -, -⟩ := validSlotBytes_iff.mp valid
      rw [Nat.mul_div_cancel_left _ (show 0 < Word.size by decide)] at words room
      have filled : 0 < slots * count := Nat.mul_pos pos (by omega)
      have whole : v.words = slots * count * 2 := by omega
      refine ⟨valid, Nat.mul_pos (by omega) (by decide), slots, ?_⟩
      rw [View.bytes, whole]
      ring

/-! ### The same with every step checked -/

/-- Tells whether a slot can have this size. -/
def validSlotBytesChecked (bytes : Nat) : Except Panic Bool := do
  if (← modulo bytes Word.size) ≠ 0 then return false
  if (← divide bytes Word.size) < 2 then return false
  return bytes ≤ maxSlotBytes

/-- Tells whether a view is not empty and made of whole slots. -/
def wholeChecked (pane : View) (slotBytes : Nat) : Except Panic Bool := do
  if pane.isEmpty then return false
  return (← modulo (← pane.bytesChecked) slotBytes) = 0

/-- One end of a channel over two panes. -/
def createChecked (slotBytes : Nat) (sendPane recvPane : View) :
    Except Panic (Except Error SlotChannel) := do
  if !(← validSlotBytesChecked slotBytes) then return .error .invalidSize
  if !(← wholeChecked sendPane slotBytes) then return .error .invalidSize
  if !(← wholeChecked recvPane slotBytes) then return .error .invalidSize
  if (← sendPane.bytesChecked) ≠ (← recvPane.bytesChecked) then return .error .invalidSize
  let slotWords ← divide slotBytes Word.size
  let slots ← divide (← sendPane.bytesChecked) slotBytes
  return .ok { sendPane, recvPane, slotWords, slots }

/-- One end of a channel over the two halves of a view. -/
def overHalvesChecked (v : View) (slotBytes : Nat) (firstHalf : Bool) :
    Except Panic (Except Error SlotChannel) := do
  match ← v.splitAtChecked (← divide (← v.bytesChecked) 2) with
  | none => return .error .invalidSize
  | some (low, high) =>
      if firstHalf then createChecked slotBytes low high else createChecked slotBytes high low

theorem validSlotBytesChecked_eq (bytes : Nat) :
    validSlotBytesChecked bytes = .ok (validSlotBytes bytes) := by
  have word : 0 < Word.size := by decide
  unfold validSlotBytesChecked validSlotBytes
  rw [modulo_ok word, divide_ok word]
  by_cases aligned : bytes % Word.size = 0
  · by_cases room : bytes / Word.size < 2
    · simp [aligned, room, Nat.not_le_of_lt room, bind, Except.bind, pure, Except.pure]
    · simp [aligned, room, Nat.le_of_not_lt room, bind, Except.bind, pure, Except.pure]
  · simp [aligned, bind, Except.bind, pure, Except.pure]

theorem wholeChecked_eq (short : v.Short) (pos : 0 < slotBytes) :
    wholeChecked v slotBytes = .ok (!(v.isEmpty || v.bytes % slotBytes ≠ 0)) := by
  unfold wholeChecked
  rw [View.bytesChecked_eq short]
  cases v.isEmpty with
  | true => rfl
  | false =>
      simp only [bind, Except.bind, modulo_ok pos]
      simp [pure, Except.pure]

/-- The size of a slot divides only after it passed the check, so it is not zero. -/
theorem createChecked_eq (shortLow : low.Short) (shortHigh : high.Short) :
    createChecked slotBytes low high = .ok (create slotBytes low high) := by
  unfold createChecked create
  rw [validSlotBytesChecked_eq]
  cases valid : validSlotBytes slotBytes with
  | false => rfl
  | true =>
      have pos : 0 < slotBytes := by
        have room := (validSlotBytes_iff.mp valid).2.1
        omega
      rw [wholeChecked_eq shortLow pos, wholeChecked_eq shortHigh pos,
        View.bytesChecked_eq shortLow, View.bytesChecked_eq shortHigh, divide_ok (by decide)]
      simp only [bind, Except.bind, divide_ok pos, Bool.not_not]
      cases low.isEmpty || low.bytes % slotBytes ≠ 0 with
      | true => rfl
      | false =>
          cases high.isEmpty || high.bytes % slotBytes ≠ 0 with
          | true => rfl
          | false =>
              by_cases equal : low.bytes = high.bytes
              · simp [equal, pure, Except.pure]
              · simp [equal, pure, Except.pure]

theorem overHalvesChecked_eq (short : v.Short) (slotBytes : Nat) (firstHalf : Bool) :
    overHalvesChecked v slotBytes firstHalf = .ok (overHalves v slotBytes firstHalf) := by
  unfold overHalvesChecked overHalves
  rw [View.bytesChecked_eq short]
  simp only [bind, Except.bind, divide_ok (show 0 < 2 by decide), View.splitAtChecked_eq short]
  cases split : v.splitAt (v.bytes / 2) with
  | none => rfl
  | some halves =>
      obtain ⟨low, high⟩ := halves
      have cut := View.Cut.whole.splitAt split
      have shortLow := short.inside cut.1.inside
      have shortHigh := short.inside cut.2.inside
      cases firstHalf with
      | true => exact createChecked_eq shortLow shortHigh
      | false => exact createChecked_eq shortHigh shortLow

end SlotChannel

/-! ### A configuration -/

/-- A new zeroed block of at least this many bytes, with the number of its words computed step
by step. -/
def Memory.allocateChecked (m : Memory) (bytes : Nat) : Except Panic (View × Memory) := do
  let words ← Word.countForChecked bytes
  if words < wordLimit then
    .ok (⟨m.blocks.size, 0, words⟩, { m with blocks := m.blocks.push (Array.replicate words 0) })
  else .error .tooLarge

theorem Memory.allocateChecked_eq {bytes : Nat} (m : Memory) (small : bytes < limit) :
    m.allocateChecked bytes = m.allocate bytes := by
  rw [allocateChecked, Word.countForChecked_eq small]
  rfl

/-- A frame of whole words is shown by a view of just its size. -/
theorem Memory.bytes_of_allocate {m m' : Memory} {bytes : Nat} {v : View} (whole : 8 ∣ bytes)
    (allocated : m.allocate bytes = .ok (v, m')) : v.bytes = bytes := by
  obtain ⟨rfl, -, -⟩ := allocate_ok allocated
  unfold View.bytes Word.countFor Word.size
  simp only
  omega

namespace Config

open SlotChannel (Divides overHalves)

variable {c : Config}

/-- Every size can be used. -/
structure Usable (c : Config) : Prop where
  divides : Divides c.slotBytes c.frameBytes
  ring : 2 ≤ c.ringLength
  page : 0 < c.pageSize
  queue : 0 < c.queueDepth

/-- What the check answers, and why. -/
inductive Verdict (c : Config) : Except ConfigError Unit → Prop where
  | usable : c.Usable → Verdict c (.ok ())
  | slots : ¬ Divides c.slotBytes c.frameBytes →
      Verdict c (.error (.unusable "ump.msg_size" c.slotBytes))
  | frame : ¬ Divides c.slotBytes c.frameBytes →
      Verdict c (.error (.unusable "ump.frame_size" c.frameBytes))
  | ring : c.ringLength < 2 → Verdict c (.error (.unusable "datachan.buffer_len" c.ringLength))
  | page : c.pageSize = 0 → Verdict c (.error (.unusable "rpc.buf_page_size" c.pageSize))
  | queue : c.queueDepth = 0 → Verdict c (.error (.unusable "host.queue_depth" c.queueDepth))

/-- The size under a key is the first that cannot be used. -/
def Refuses (c : Config) (key : String) : Prop :=
  ∃ size, c.validate = .error (.unusable key size)

theorem divides_iff : Divides c.slotBytes c.frameBytes ↔
    SlotChannel.validSlotBytes c.slotBytes = true ∧
      validFrame c.slotBytes c.frameBytes = true := by
  simp only [validFrame, Bool.and_eq_true, decide_eq_true_eq, beq_iff_eq]
  constructor
  · rintro ⟨valid, pos, dvd⟩
    exact ⟨valid, Nat.ne_of_gt pos, Nat.mod_eq_zero_of_dvd dvd⟩
  · rintro ⟨valid, some, whole⟩
    exact ⟨valid, Nat.pos_of_ne_zero some, Nat.dvd_of_mod_eq_zero whole⟩

theorem verdict (c : Config) : c.Verdict c.validate := by
  unfold validate
  split
  · case isTrue invalid => exact .slots fun divides => by simp [divides.valid] at invalid
  split
  · case isTrue invalid =>
      exact .frame fun divides => by simp [(divides_iff.mp divides).2] at invalid
  split
  · case isTrue short => exact .ring short
  split
  · case isTrue zero => exact .page zero
  split
  · case isTrue zero => exact .queue zero
  case isFalse valid whole long page queue =>
    simp only [Bool.not_eq_true', Bool.not_eq_false] at valid whole
    exact .usable ⟨divides_iff.mpr ⟨valid, whole⟩, Nat.le_of_not_lt long, Nat.pos_of_ne_zero page,
      Nat.pos_of_ne_zero queue⟩

theorem usable_of_validate (accepted : c.validate = .ok ()) : c.Usable := by
  have verdict := c.verdict
  rw [accepted] at verdict
  cases verdict with
  | usable usable => exact usable

theorem Usable.validate (usable : c.Usable) : c.validate = .ok () := by
  have verdict := c.verdict
  generalize c.validate = answer at verdict
  cases verdict with
  | usable => rfl
  | slots unfit | frame unfit => exact absurd usable.divides unfit
  | ring short => exact absurd usable.ring (Nat.not_le_of_lt short)
  | page zero => exact absurd zero (Nat.ne_of_gt usable.page)
  | queue zero => exact absurd zero (Nat.ne_of_gt usable.queue)

/-- A configuration whose slots divide the frame is refused for something else, if at all. -/
theorem not_refuses_slots (divides : Divides c.slotBytes c.frameBytes) :
    ¬ c.Refuses "ump.msg_size" ∧ ¬ c.Refuses "ump.frame_size" := by
  have verdict := c.verdict
  unfold Refuses
  generalize c.validate = answer at verdict
  cases verdict with
  | slots unfit | frame unfit => exact absurd divides unfit
  | usable | ring | page | queue => simp

theorem not_refuses_ring (enough : 2 ≤ c.ringLength) : ¬ c.Refuses "datachan.buffer_len" := by
  have verdict := c.verdict
  unfold Refuses
  generalize c.validate = answer at verdict
  cases verdict with
  | ring short => exact absurd enough (Nat.not_le_of_lt short)
  | usable | slots | frame | page | queue => simp

/-! ### The check with every step checked -/

/-- Tells whether a frame divides into two panes of whole slots. -/
def validFrameChecked (slotBytes frameBytes : Nat) : Except Panic Bool := do
  if frameBytes = 0 then return false
  return (← modulo frameBytes (← times 2 slotBytes)) = 0

/-- Passes if every size can be used. -/
def validateChecked (c : Config) : Except Panic (Except ConfigError Unit) := do
  if !(← SlotChannel.validSlotBytesChecked c.slotBytes) then
    return .error (.unusable "ump.msg_size" c.slotBytes)
  if !(← validFrameChecked c.slotBytes c.frameBytes) then
    return .error (.unusable "ump.frame_size" c.frameBytes)
  if c.ringLength < 2 then return .error (.unusable "datachan.buffer_len" c.ringLength)
  if c.pageSize = 0 then return .error (.unusable "rpc.buf_page_size" c.pageSize)
  if c.queueDepth = 0 then return .error (.unusable "host.queue_depth" c.queueDepth)
  return .ok ()

/-- The frame is divided only by a size of slots that passed the check: it is not zero, and
small. -/
theorem validFrameChecked_eq {slotBytes : Nat}
    (valid : SlotChannel.validSlotBytes slotBytes = true) (frameBytes : Nat) :
    validFrameChecked slotBytes frameBytes = .ok (validFrame slotBytes frameBytes) := by
  obtain ⟨-, room, small⟩ := SlotChannel.validSlotBytes_iff.mp valid
  have fits : 2 * slotBytes < limit := by
    unfold limit
    omega
  unfold validFrameChecked validFrame
  rw [times_ok fits]
  by_cases empty : frameBytes = 0
  · simp [empty, pure, Except.pure]
  · simp only [empty, bind, Except.bind, modulo_ok (show 0 < 2 * slotBytes by omega)]
    simp [empty, pure, Except.pure, beq_eq_decide]

theorem validateChecked_eq (c : Config) : c.validateChecked = .ok c.validate := by
  unfold validateChecked Config.validate
  rw [SlotChannel.validSlotBytesChecked_eq]
  cases valid : SlotChannel.validSlotBytes c.slotBytes with
  | false => rfl
  | true =>
      rw [validFrameChecked_eq valid]
      cases validFrame c.slotBytes c.frameBytes with
      | false => rfl
      | true =>
          simp only [bind, Except.bind, Bool.not_true, Bool.false_eq_true, if_false]
          by_cases short : c.ringLength < 2
          · rw [if_pos short, if_pos short]
            rfl
          by_cases page : c.pageSize = 0
          · simp [short, page, pure, Except.pure]
          by_cases queue : c.queueDepth = 0
          · simp [short, page, queue, pure, Except.pure]
          · simp [short, page, queue, pure, Except.pure]

/-! ### The check and what is made -/

/-- The check of a configuration says the same as those who make something of its sizes. -/
structure Agrees (c : Config) : Prop where
  /-- Of the frame of a usable configuration both ends of a channel are made, with equally many
  slots, whatever memory it is in; there only has to be room for it. -/
  channel : c.validate = .ok () → Word.countFor c.frameBytes < Memory.wordLimit → ∀ m : Memory,
    ∃ v m' first second, m.allocate c.frameBytes = .ok (v, m') ∧
      overHalves v c.slotBytes true = .ok first ∧ overHalves v c.slotBytes false = .ok second ∧
      first.slots = second.slots ∧ 1 ≤ first.slots
  /-- With the ring of a usable configuration a stream is made over any transport: an endpoint, or
  an end of a channel. -/
  stream : c.validate = .ok () → c.ringLength < Ring.lengthLimit → ∀ t : Transport,
    ∃ s, Stream.create t c.ringLength = .ok (.ok s) ∧ s.transport = t
  /-- The queues of the kernel are as long as a usable configuration says. -/
  kernel : c.validate = .ok () → (Kernel.create c.queueDepth).depth = c.queueDepth
  /-- If either end is made over a frame of whole words, its sizes are not refused. -/
  slots : 8 ∣ c.frameBytes → ∀ {m m' : Memory} {v firstHalf e},
    m.allocate c.frameBytes = .ok (v, m') → overHalves v c.slotBytes firstHalf = .ok e →
      ¬ c.Refuses "ump.msg_size" ∧ ¬ c.Refuses "ump.frame_size"
  /-- If a stream is made, the length of its ring is not refused. -/
  ring : ∀ {t s}, Stream.create t c.ringLength = .ok (.ok s) → ¬ c.Refuses "datachan.buffer_len"
  /-- If all of it is made and the two sizes that nothing is made of are not zero, the
  configuration is usable. -/
  made : 8 ∣ c.frameBytes → ∀ {m m' : Memory} {v firstHalf e t s},
    m.allocate c.frameBytes = .ok (v, m') → overHalves v c.slotBytes firstHalf = .ok e →
      Stream.create t c.ringLength = .ok (.ok s) → 0 < c.pageSize → 0 < c.queueDepth →
        c.validate = .ok ()
  /-- No step of the check overflows or divides by zero. -/
  checked : c.validateChecked = .ok c.validate
  /-- Nor does a step of an allocation, if the size is a machine word. -/
  checkedFrame : c.frameBytes < limit → ∀ m : Memory,
    m.allocateChecked c.frameBytes = m.allocate c.frameBytes
  /-- Nor does a step on the way to a channel over what was allocated. -/
  checkedChannel : ∀ {m m' : Memory} {v}, m.allocate c.frameBytes = .ok (v, m') → ∀ firstHalf,
    SlotChannel.overHalvesChecked v c.slotBytes firstHalf =
      .ok (overHalves v c.slotBytes firstHalf)

/-- A stream whose ring has two bytes at least can be made, if there is room for the ring. -/
theorem stream_create {length : Nat} (enough : 2 ≤ length) (room : length < Ring.lengthLimit)
    (t : Transport) : ∃ s, Stream.create t length = .ok (.ok s) ∧ s.transport = t := by
  rw [Stream.create, Ring.create, if_neg (Nat.not_lt_of_le enough), if_pos room]
  exact ⟨_, rfl, rfl⟩

/-- The ring of a stream that was made has two bytes at least. -/
theorem two_le_of_stream {length : Nat} {t : Transport} {s : Stream}
    (made : Stream.create t length = .ok (.ok s)) : 2 ≤ length := by
  by_contra short
  rw [Stream.create, Ring.create, if_pos (Nat.lt_of_not_le short)] at made
  cases made

/-- The frame of a usable configuration is made of whole words. -/
theorem Usable.whole (usable : c.Usable) : 8 ∣ c.frameBytes := by
  obtain ⟨words, slots, -, -, -, size⟩ := usable.divides.slots
  exact ⟨slots * words * 2, by rw [size, Nat.mul_comm]⟩

theorem Usable.channel (usable : c.Usable)
    (room : Word.countFor c.frameBytes < Memory.wordLimit) (m : Memory) :
    ∃ v m' first second, m.allocate c.frameBytes = .ok (v, m') ∧
      overHalves v c.slotBytes true = .ok first ∧ overHalves v c.slotBytes false = .ok second ∧
      first.slots = second.slots ∧ 1 ≤ first.slots := by
  obtain ⟨v, m', allocated⟩ : ∃ v m', m.allocate c.frameBytes = .ok (v, m') :=
    ⟨_, _, if_pos room⟩
  have divides : Divides c.slotBytes v.bytes :=
    Memory.bytes_of_allocate usable.whole allocated ▸ usable.divides
  have room := (SlotChannel.validSlotBytes_iff.mp divides.valid).2.1
  have enough : 2 * c.slotBytes ≤ v.bytes := Nat.le_of_dvd divides.pos divides.dvd
  exact ⟨v, m', _, _, allocated, SlotChannel.overHalves_ok divides true,
    SlotChannel.overHalves_ok divides false, rfl, Nat.div_pos enough (by omega)⟩

/-- A channel was made only of a frame that its slots divide. -/
theorem divides_of_made {m m' : Memory} {v : View} {firstHalf : Bool} {e : SlotChannel}
    (whole : 8 ∣ c.frameBytes) (allocated : m.allocate c.frameBytes = .ok (v, m'))
    (made : overHalves v c.slotBytes firstHalf = .ok e) : Divides c.slotBytes c.frameBytes := by
  have divides := SlotChannel.divides_of_overHalves made
  rwa [Memory.bytes_of_allocate whole allocated] at divides

/-- The check of a configuration agrees with what is made of it, in both directions, and neither
overflows or divides by zero. -/
theorem sizes_agree (c : Config) : c.Agrees where
  channel accepted := (usable_of_validate accepted).channel
  stream accepted := stream_create (usable_of_validate accepted).ring
  kernel accepted := Nat.max_eq_left (usable_of_validate accepted).queue
  slots whole _ _ _ _ _ allocated made := not_refuses_slots (divides_of_made whole allocated made)
  ring made := not_refuses_ring (two_le_of_stream made)
  made whole _ _ _ _ _ _ _ allocated channel stream page queue :=
    Usable.validate ⟨divides_of_made whole allocated channel, two_le_of_stream stream, page, queue⟩
  checked := c.validateChecked_eq
  checkedFrame small m := m.allocateChecked_eq small
  checkedChannel allocated firstHalf :=
    SlotChannel.overHalvesChecked_eq (Memory.short_allocate allocated) _ firstHalf

/-- The standard sizes are usable. -/
example : validate {} = .ok () := by decide

end Config

end Conduit

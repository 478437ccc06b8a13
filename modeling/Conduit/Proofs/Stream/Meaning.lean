/-
# What any messages mean

A peer may send any words. `interpret` says what a sequence of messages means, byte string by
byte string: a length in the first word of a message, then that many bytes out of the words
behind it and out of as many further messages as it takes, whatever is left of the last of
them being ignored; and nothing after the mark of the end.

A receiving end knows only how many bytes are to come, and reads message by message
(`Intake.next`). `intake_interpret` says that this comes to the same. In particular what was
read is never taken back by later messages (`Intake.bytes_prefix`).
-/

import Conduit.Proofs.Stream.Transcript

namespace Conduit

namespace Stream

/-! ### Byte string by byte string -/

/-- What messages mean. -/
structure Meaning where
  /-- The bytes, of all byte strings in order. -/
  bytes : List UInt8
  /-- How many bytes the last byte string lacks. -/
  missing : Nat
  /-- The end was announced. -/
  ended : Bool
  deriving DecidableEq

/-- The number of messages of this width that hold so many bytes. -/
def messagesFor (width length : Nat) : Nat :=
  (length + width * Word.size - 1) / (width * Word.size)

/-- What messages mean that start between byte strings. -/
def interpret (width : Nat) : List (List UInt64) → Meaning
  | [] => ⟨[], 0, false⟩
  | head :: rest =>
      if head.headD 0 = closeMark then ⟨[], 0, true⟩
      else
        let length := (head.headD 0).toNat
        let further := messagesFor width (length - headRoom width)
        let bytes := (Word.unpack (head.tail ++ (rest.take further).flatten)).take length
        let later := interpret width (rest.drop further)
        ⟨bytes ++ later.bytes, (length - bytes.length) + later.missing, later.ended⟩
termination_by messages => messages.length
decreasing_by simp only [List.length_drop, List.length_cons]; omega

/-! ### Message by message -/

/-- What a receiving end knows of the messages that it took. -/
structure Intake where
  /-- The bytes that they held. -/
  bytes : List UInt8 := []
  /-- How many bytes are to come of the current byte string. -/
  left : UInt64 := 0
  /-- The end was announced. -/
  ended : Bool := false

namespace Intake

/-- One more message. After the end it is ignored. -/
def next (x : Intake) (words : List UInt64) : Intake :=
  if x.ended then x
  else if isClose x.left words then { x with ended := true }
  else { x with bytes := x.bytes ++ (scan x.left words).1, left := (scan x.left words).2 }

/-- Some more messages. -/
def all (x : Intake) (messages : List (List UInt64)) : Intake := messages.foldl next x

/-- What was taken in means this. -/
def meaning (x : Intake) : Meaning := ⟨x.bytes, x.left.toNat, x.ended⟩

variable {x : Intake} {words : List UInt64}

theorem all_append (x : Intake) (first second : List (List UInt64)) :
    x.all (first ++ second) = (x.all first).all second := List.foldl_append

theorem next_ended (ended : x.ended = true) (words : List UInt64) : x.next words = x := by
  rw [next, if_pos ended]

theorem next_close (isOpen : x.ended = false) (close : isClose x.left words = true) :
    x.next words = { x with ended := true } := by
  rw [next, if_neg (by rw [isOpen]; exact Bool.false_ne_true), if_pos close]

theorem next_scan (isOpen : x.ended = false) (data : isClose x.left words = false) :
    x.next words =
      { x with bytes := x.bytes ++ (scan x.left words).1, left := (scan x.left words).2 } := by
  rw [next, if_neg (by rw [isOpen]; exact Bool.false_ne_true),
    if_neg (by rw [data]; exact Bool.false_ne_true)]

/-- After the end everything is ignored. -/
theorem all_ended (ended : x.ended = true) (messages : List (List UInt64)) :
    x.all messages = x := by
  induction messages with
  | nil => rfl
  | cons words rest ih =>
      rw [all, List.foldl_cons, next_ended ended]
      exact ih

/-- What was read is never taken back. -/
theorem bytes_prefix (x : Intake) (messages : List (List UInt64)) :
    x.bytes <+: (x.all messages).bytes := by
  induction messages generalizing x with
  | nil => exact List.prefix_rfl
  | cons words rest ih =>
      refine List.IsPrefix.trans ?_ (ih (x.next words))
      unfold next
      split
      · exact List.prefix_rfl
      · split
        · exact List.prefix_rfl
        · exact List.prefix_append _ _

/-- Bytes that were read before stay in front, and change nothing else. -/
theorem next_behind (bytes : List UInt8) (left : UInt64) (ended : Bool) (words : List UInt64) :
    (⟨bytes, left, ended⟩ : Intake).next words =
      { (⟨[], left, ended⟩ : Intake).next words with
        bytes := bytes ++ ((⟨[], left, ended⟩ : Intake).next words).bytes } := by
  cases ended with
  | true => simp only [next, if_true, List.append_nil]
  | false =>
      cases close : isClose left words with
      | true => rw [next_close rfl close, next_close rfl close, List.append_nil]
      | false => rw [next_scan rfl close, next_scan rfl close, List.nil_append]

theorem all_behind (bytes : List UInt8) (left : UInt64) (ended : Bool)
    (messages : List (List UInt64)) :
    (⟨bytes, left, ended⟩ : Intake).all messages =
      { (⟨[], left, ended⟩ : Intake).all messages with
        bytes := bytes ++ ((⟨[], left, ended⟩ : Intake).all messages).bytes } := by
  induction messages generalizing bytes left ended with
  | nil => simp only [all, List.foldl_nil, List.append_nil]
  | cons words rest ih =>
      have step : ∀ x : Intake, x.all (words :: rest) = (x.next words).all rest := fun _ => rfl
      rw [step, step, next_behind, ih, ih ((⟨[], left, ended⟩ : Intake).next words).bytes]
      simp only [List.append_assoc]

/-- What stands in front of the bytes that were read stays there. -/
theorem all_front (front : List UInt8) (x : Intake) (messages : List (List UInt64)) :
    ({ x with bytes := front ++ x.bytes } : Intake).all messages =
      { x.all messages with bytes := front ++ (x.all messages).bytes } := by
  obtain ⟨bytes, left, ended⟩ := x
  rw [all_behind, all_behind bytes]
  simp only [List.append_assoc]

end Intake

/-! ### The two readings agree -/

/-- The bytes of some words are those that the first of them hold, and then as many of the
others as are to come. -/
theorem unpack_portion (left : UInt64) (payload more : List UInt64) :
    (Word.unpack (payload ++ more)).take left.toNat =
        (portion left payload).1 ++ (Word.unpack more).take (portion left payload).2.toNat ∧
      (portion left payload).1.length = min left.toNat (payload.length * Word.size) ∧
      (portion left payload).2.toNat = left.toNat - payload.length * Word.size := by
  have whole := length_portion left payload
  have held : (Word.unpack payload).length = payload.length * Word.size := by
    rw [Word.length_unpack, Nat.mul_comm]
  have length : (portion left payload).1.length = min left.toNat (payload.length * Word.size) := by
    rw [portion, List.length_take, held, Nat.min_assoc, Nat.min_self]
  have remains : (portion left payload).2.toNat = left.toNat - payload.length * Word.size := by
    omega
  refine ⟨?_, length, remains⟩
  have joined : Word.unpack (payload ++ more) = Word.unpack payload ++ Word.unpack more :=
    List.flatMap_append
  rw [joined, List.take_append, remains, held]
  congr 1
  rw [portion, ← held]
  exact List.take_eq_take_min

section Agree

variable {width : Nat} (wide : 1 ≤ width)

include wide

theorem messagesFor_zero : messagesFor width 0 = 0 := by
  have room : 0 < width * Word.size := Nat.mul_pos wide (by decide)
  exact Nat.div_eq_of_lt (by omega)

/-- A message that holds some of the bytes leaves the others to one message less. -/
theorem messagesFor_pos {length : Nat} (some : length ≠ 0) :
    messagesFor width length = messagesFor width (length - width * Word.size) + 1 := by
  have room : 0 < width * Word.size := Nat.mul_pos wide (by decide)
  unfold messagesFor
  generalize width * Word.size = count at *
  rcases Nat.le_total length count with fits | more
  · have shifted : length + count - 1 = length - 1 + count := by omega
    rw [Nat.sub_eq_zero_of_le fits, Nat.div_eq_of_lt (by omega : 0 + count - 1 < count), shifted,
      Nat.add_div_right _ room, Nat.div_eq_of_lt (by omega)]
  · have shifted : length + count - 1 = length - count + count - 1 + count := by omega
    rw [shifted, Nat.add_div_right _ room]

/-- What is to come of a byte string is read out of as many messages as hold it, and the
messages behind them are read from the start of a byte string. -/
theorem intake_string (left : UInt64) {messages : List (List UInt64)}
    (full : ∀ words ∈ messages, words.length = width) :
    let further := messagesFor width left.toNat
    let bytes := (Word.unpack (messages.take further).flatten).take left.toNat
    let later := (({} : Intake).all (messages.drop further)).meaning
    ((⟨[], left, false⟩ : Intake).all messages).meaning =
      ⟨bytes ++ later.bytes, (left.toNat - bytes.length) + later.missing, later.ended⟩ := by
  induction messages generalizing left with
  | nil =>
      simp only [List.take_nil, List.drop_nil, List.flatten_nil]
      simp [Intake.all, Intake.meaning, Word.unpack]
  | cons words rest ih =>
      by_cases between : left = 0
      · subst between
        simp only [UInt64.toNat_zero, messagesFor_zero wide, List.take_zero, List.drop_zero,
          List.nil_append, List.length_nil, Nat.sub_self, Nat.zero_add]
      · have some : left.toNat ≠ 0 := fun none => between (UInt64.toNat_inj.mp none)
        have data : isClose left words = false := by
          rw [isClose, beq_eq_false_iff_ne.mpr between, Bool.false_and]
        have scanned : scan left words = portion left words := by rw [scan, if_neg between]
        have size : words.length = width := full words List.mem_cons_self
        have step : (⟨[], left, false⟩ : Intake).all (words :: rest) =
            (⟨(portion left words).1, (portion left words).2, false⟩ : Intake).all rest := by
          rw [Intake.all, List.foldl_cons, Intake.next_scan rfl data, scanned]
          rfl
        have later := ih (portion left words).2 fun w mem => full w (List.mem_cons_of_mem _ mem)
        obtain ⟨bytes, length, remains⟩ := unpack_portion left words
          (rest.take (messagesFor width (left.toNat - width * Word.size))).flatten
        rw [size] at length remains
        rw [remains] at later bytes
        simp only [messagesFor_pos wide some, List.take_succ_cons, List.drop_succ_cons,
          List.flatten_cons, bytes]
        rw [step, Intake.all_behind]
        simp only [Intake.meaning, Meaning.mk.injEq] at later ⊢
        refine ⟨?_, ?_, later.2.2⟩
        · rw [later.1, List.append_assoc]
        · rw [later.2.1, List.length_append, length]
          omega

/-- Message by message the same is read as byte string by byte string. -/
theorem intake_interpret {messages : List (List UInt64)}
    (full : ∀ words ∈ messages, words.length = width) :
    (({} : Intake).all messages).meaning = interpret width messages := by
  fun_induction interpret width messages with
  | case1 => rfl
  | case2 head rest mark =>
      have close : isClose 0 head = true := by
        rw [isClose, beq_self_eq_true, Bool.true_and, beq_iff_eq]
        exact mark
      rw [Intake.all, List.foldl_cons, Intake.next_close rfl close]
      exact congrArg Intake.meaning (Intake.all_ended rfl rest)
  | case3 head rest mark length further bytes later ih =>
      have data : isClose 0 head = false := by
        rw [isClose, beq_eq_false_iff_ne.mpr mark, Bool.and_false]
      have scanned : scan 0 head = portion (head.headD 0) head.tail := by
        rw [scan, if_pos rfl, if_neg mark]
      have size : head.tail.length * Word.size = headRoom width := by
        rw [List.length_tail, full head List.mem_cons_self]
        rfl
      have step : ({} : Intake).all (head :: rest) =
          (⟨(portion (head.headD 0) head.tail).1, (portion (head.headD 0) head.tail).2, false⟩ :
            Intake).all rest := by
        rw [Intake.all, List.foldl_cons, Intake.next_scan rfl data, scanned]
        rfl
      have string := intake_string wide (portion (head.headD 0) head.tail).2
        fun w mem => full w (List.mem_cons_of_mem _ mem)
      have behind := ih fun w mem => full w (List.mem_cons_of_mem _ (List.mem_of_mem_drop mem))
      obtain ⟨bytes_eq, length_eq, remains⟩ := unpack_portion (head.headD 0) head.tail
        (rest.take further).flatten
      rw [size] at length_eq remains
      rw [remains] at string bytes_eq
      rw [step, Intake.all_behind]
      have behind' : later = (({} : Intake).all (rest.drop further)).meaning := behind.symm
      have bytes' : bytes = _ := bytes_eq
      rw [behind', bytes']
      simp only [Intake.meaning, Meaning.mk.injEq] at string ⊢
      refine ⟨?_, ?_, string.2.2⟩
      · rw [string.1, List.append_assoc]
      · have count : further = messagesFor width ((head.headD 0).toNat - headRoom width) := rfl
        rw [string.2.1, List.length_append, length_eq, ← count]
        change _ = (head.headD 0).toNat - _ + _
        omega

end Agree

end Stream

end Conduit

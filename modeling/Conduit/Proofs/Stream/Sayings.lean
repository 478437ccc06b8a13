/-
# What the messages of a log are taken for

Whoever reads messages takes each of them for the beginning of a byte string, for more of
one, or for the end, depending on how many bytes are to come (`readings`). What each message
is follows from the operation that sent it (`Saying.roles`). An operation of which some
messages were accepted but not all leaves bytes to come, and then the next message that is
accepted is taken for more of its byte string, whatever it is. `framed_iff` says that this
is the only way in which a message is taken for something else.
-/

import Conduit.Proofs.Stream.Speaking

namespace Conduit

namespace Stream

/-! ### Reading messages -/

/-- What a message is taken for when so many bytes are to come. -/
def reading (left : UInt64) (words : List UInt64) : Fragment :=
  if left = 0 then if words.headD 0 = closeMark then .close else .start (words.headD 0)
  else .continuation

/-- What messages are taken for, one after the other. -/
def readings (left : UInt64) : List (List UInt64) → List Fragment
  | [] => []
  | words :: rest => reading left words :: readings (scan left words).2 rest

/-- A receiving end takes a message for what it reads. -/
theorem absorb_fst (s : Stream) (words : List UInt64) :
    (s.absorb words).1 = reading s.bytesLeft words := by
  unfold absorb reading
  by_cases between : s.bytesLeft = 0
  · by_cases mark : words.headD 0 = closeMark
    · simp only [if_pos between, if_pos mark]
    · simp only [if_pos between, if_neg mark]
  · simp only [if_neg between]

variable {left : UInt64} {read : List (List UInt64)}

theorem readings_append (left : UInt64) (first second : List (List UInt64)) :
    readings left (first ++ second) =
      readings left first ++ readings (decode left first).2 second := by
  induction first generalizing left with
  | nil => rfl
  | cons words first ih => simp only [List.cons_append, readings, decode, ih]

theorem length_readings (left : UInt64) (read : List (List UInt64)) :
    (readings left read).length = read.length := by
  induction read generalizing left with
  | nil => rfl
  | cons words read ih => rw [readings, List.length_cons, List.length_cons, ih]

theorem isClose_iff (left : UInt64) (words : List UInt64) :
    isClose left words = true ↔ reading left words = .close := by
  unfold isClose reading
  by_cases between : left = 0
  · by_cases mark : words.headD 0 = closeMark <;> simp [between]
  · simp [between]

theorem isStart_iff (left : UInt64) (words : List UInt64) :
    isStart left words = true ↔ reading left words = .start (words.headD 0) := by
  unfold isStart reading
  by_cases between : left = 0
  · by_cases mark : words.headD 0 = closeMark <;> simp [between]
  · simp [between]

/-- The end was announced if a message is taken for that. -/
theorem closes_iff (left : UInt64) (read : List (List UInt64)) :
    closes left read = true ↔ Fragment.close ∈ readings left read := by
  induction read generalizing left with
  | nil => exact iff_of_false Bool.false_ne_true List.not_mem_nil
  | cons words read ih =>
      rw [closes, readings, Bool.or_eq_true, isClose_iff, ih, List.mem_cons]
      exact or_congr_left eq_comm

/-- Messages none of which is a beginning or the end go on with a byte string. -/
theorem readings_eq_continuation (noStart : starts left read = 0)
    (noClose : closes left read = false) :
    readings left read = read.map fun _ => .continuation := by
  induction read generalizing left with
  | nil => rfl
  | cons words read ih =>
      rw [starts, Nat.add_eq_zero_iff] at noStart
      rw [closes, Bool.or_eq_false_iff] at noClose
      have comes : left ≠ 0 := by
        rintro rfl
        by_cases mark : words.headD 0 = closeMark
        · have isClose := (isClose_iff 0 words).mpr (by rw [reading, if_pos rfl, if_pos mark])
          rw [noClose.1] at isClose
          cases isClose
        · have isStart := (isStart_iff 0 words).mpr (by rw [reading, if_pos rfl, if_neg mark])
          rw [isStart] at noStart
          exact absurd noStart.1 (by decide)
      rw [readings, ih noStart.2 noClose.2, reading, if_neg comes, List.map_cons]

/-! ### One operation -/

/-- What the messages of an operation are that were accepted. -/
def Saying.roles (saying : Saying) : List Fragment :=
  match saying.op, saying.accepted with
  | .send data, _ :: rest =>
      .start (UInt64.ofNat data.length) :: rest.map fun _ => .continuation
  | .close, accepted => accepted.map fun _ => .close
  | _, _ => []

/-- The bytes of the messages of an operation that were accepted. -/
def Saying.bytes (saying : Saying) : List UInt8 := (decode 0 saying.accepted).1

/-- The messages of an operation say the byte strings that it sends. -/
theorem Op.decode_messages {op : Op} (speaks : op.part = .speaker) (short : op.Short) :
    decode 0 (op.messages Letter.width) = (op.strings.flatten, 0) := by
  cases op with
  | send data =>
      rw [Op.strings, List.flatten_singleton]
      exact decode_wireForm (by decide) short
  | close => exact decode_closeWords _
  | _ => cases speaks

namespace Saying

variable {saying : Saying}

/-- The messages that were accepted are read as what they are, and they leave something to
come exactly if the operation is torn. -/
theorem Sound.readings_eq (sound : saying.Sound) : readings 0 saying.accepted = saying.roles ∧
    ((decode 0 saying.accepted).2 = 0 ↔ ¬ saying.Torn) := by
  obtain ⟨op, accepted, outcome⟩ := saying
  obtain ⟨speaks, short, ⟨later, split⟩, -, -⟩ := sound
  cases accepted with
  | nil =>
      refine ⟨?_, iff_of_true rfl fun torn => torn.1 rfl⟩
      cases op <;> rfl
  | cons words rest =>
      cases op with
      | close =>
          obtain ⟨rfl, none⟩ := List.cons.inj split
          obtain ⟨rfl, rfl⟩ := List.append_eq_nil_iff.mp none
          refine ⟨?_, iff_of_true ?_ fun torn => torn.2 rfl⟩
          · rw [readings, reading, if_pos rfl, closeWords, List.headD_cons, if_pos rfl]
            rfl
          · rw [decode_closeWords]
      | send data =>
          change words :: rest ++ later = wireForm Letter.width data at split
          obtain ⟨one, noClose, all⟩ := wireForm_split short split.symm (List.cons_ne_nil _ _)
          have isHead : words = headWords Letter.width data := by
            rw [wireForm, List.cons_append] at split
            exact (List.cons.inj split).1
          have mark := ofNat_ne_closeMark short
          have first : reading 0 words = .start (UInt64.ofNat data.length) := by
            rw [isHead, reading, if_pos rfl, headWords, List.headD_cons, if_neg mark]
          have start : isStart 0 words = true := by
            rw [isStart_iff, first, isHead, headWords, List.headD_cons]
          rw [starts, start] at one
          rw [closes, Bool.or_eq_false_iff] at noClose
          refine ⟨?_, ?_⟩
          · rw [readings, first, readings_eq_continuation (Nat.add_eq_left.mp one) noClose.2]
            rfl
          · constructor
            · intro between torn
              refine torn.2 ?_
              rw [all between, List.append_nil] at split
              exact split
            · intro whole
              have same : words :: rest = wireForm Letter.width data := by
                by_contra differs
                exact whole ⟨List.cons_ne_nil _ _, differs⟩
              change (decode 0 (words :: rest)).2 = 0
              rw [same, decode_wireForm (by decide) short]
      | _ => cases speaks

/-- The bytes of an operation are the first ones of what it sends. -/
theorem Sound.bytes_prefix (sound : saying.Sound) :
    saying.bytes <+: saying.op.strings.flatten := by
  obtain ⟨later, split⟩ := sound.front
  have decoded := Op.decode_messages sound.speaks sound.short
  rw [← split, decode_append] at decoded
  exact ⟨_, congrArg Prod.fst decoded⟩

/-- An operation that returned is not torn, and its bytes are what it sends. -/
theorem Sound.returned (sound : saying.Sound) (ok : saying.outcome = .ok ()) :
    ¬ saying.Torn ∧ saying.bytes = saying.op.strings.flatten := by
  have decoded := Op.decode_messages sound.speaks sound.short
  obtain ⟨op, accepted, outcome⟩ := saying
  cases op with
  | send data =>
      have all : accepted = wireForm Letter.width data := sound.whole ok data rfl
      refine ⟨fun torn => torn.2 all, ?_⟩
      rw [bytes, all]
      exact congrArg Prod.fst decoded
  | close =>
      rcases List.prefix_cons_iff.mp sound.front with none | ⟨rest, all, front⟩
      · exact ⟨fun torn => torn.1 none, by rw [bytes, none]; rfl⟩
      · have all : accepted = [closeWords Letter.width] := by
          rw [List.prefix_nil.mp front] at all
          exact all
        exact ⟨fun torn => torn.2 all, by rw [bytes, all, decode_closeWords]; rfl⟩
  | _ => cases sound.speaks

end Saying

/-! ### All operations -/

/-- After an operation that is torn no message is accepted. -/
def Unbroken (log : List Saying) : Prop :=
  log.Pairwise fun saying later => saying.Torn → later.accepted = []

variable {log : List Saying}

/-- The first message of an operation begins a byte string, or announces the end. -/
theorem Saying.roles_head {saying : Saying} {role : Fragment} {rest : List Fragment}
    (first : saying.roles = role :: rest) : role ≠ .continuation := by
  obtain ⟨op, accepted, outcome⟩ := saying
  rintro rfl
  cases op with
  | send data =>
      cases accepted with
      | nil => cases first
      | cons words more => cases first
  | close =>
      cases accepted with
      | nil => cases first
      | cons words more => cases first
  | _ => cases first

theorem flatMap_roles_head {role : Fragment} {rest : List Fragment}
    (first : log.flatMap Saying.roles = role :: rest) : role ≠ .continuation := by
  induction log with
  | nil => cases first
  | cons saying log ih =>
      rw [List.flatMap_cons] at first
      cases roles : saying.roles with
      | nil =>
          rw [roles] at first
          exact ih first
      | cons role' rest' =>
          rw [roles] at first
          obtain ⟨rfl, -⟩ := List.cons.inj first
          exact Saying.roles_head roles

/-- Where no message was accepted, nothing is torn. -/
theorem unbroken_of_silent (silent : ∀ saying ∈ log, saying.accepted = []) : Unbroken log :=
  List.pairwise_of_forall_mem_list fun _ _ later mem _ => silent later mem

/-- All messages are taken for what they are exactly if none is accepted after a torn
operation. -/
theorem framed_iff (sound : ∀ saying ∈ log, saying.Sound) :
    readings 0 (log.flatMap Saying.accepted) = log.flatMap Saying.roles ↔ Unbroken log := by
  induction log with
  | nil => exact iff_of_true rfl List.Pairwise.nil
  | cons saying log ih =>
      have later := fun s mem => sound s (List.mem_cons_of_mem _ mem)
      obtain ⟨same, between⟩ := (sound saying List.mem_cons_self).readings_eq
      rw [List.flatMap_cons, List.flatMap_cons, readings_append, same, List.append_cancel_left_eq,
        Unbroken, List.pairwise_cons]
      by_cases torn : saying.Torn
      · have comes : (decode 0 saying.accepted).2 ≠ 0 := fun none => between.mp none torn
        constructor
        · intro framed
          have silent : ∀ s ∈ log, s.accepted = [] := by
            rw [← List.flatMap_eq_nil_iff]
            -- A message that is accepted next is taken for a continuation, and it is none.
            cases further : log.flatMap Saying.accepted with
            | nil => rfl
            | cons words rest =>
                rw [further, readings, reading, if_neg comes] at framed
                exact (flatMap_roles_head framed.symm rfl).elim
          exact ⟨fun s mem _ => silent s mem, unbroken_of_silent silent⟩
        · rintro ⟨silent, -⟩
          have accepted : log.flatMap Saying.accepted = [] :=
            List.flatMap_eq_nil_iff.mpr fun s mem => silent s mem torn
          have roles : log.flatMap Saying.roles = [] :=
            List.flatMap_eq_nil_iff.mpr fun s mem => by
              rw [← (later s mem).readings_eq.1, silent s mem torn]
              rfl
          rw [accepted, roles]
          rfl
      · rw [between.mpr torn, ih later]
        exact ⟨fun unbroken => ⟨fun _ _ torn' => (torn torn').elim, unbroken⟩, fun both => both.2⟩

/-- While nothing is accepted after a torn operation, the messages say the bytes of the
operations, one operation after the other. -/
theorem decode_unbroken (sound : ∀ saying ∈ log, saying.Sound) (unbroken : Unbroken log) :
    (decode 0 (log.flatMap Saying.accepted)).1 = log.flatMap Saying.bytes := by
  induction log with
  | nil => rfl
  | cons saying log ih =>
      have later := fun s mem => sound s (List.mem_cons_of_mem _ mem)
      obtain ⟨-, between⟩ := (sound saying List.mem_cons_self).readings_eq
      obtain ⟨silent, unbroken⟩ := List.pairwise_cons.mp unbroken
      rw [List.flatMap_cons, List.flatMap_cons, decode_append]
      by_cases torn : saying.Torn
      · have accepted : log.flatMap Saying.accepted = [] :=
          List.flatMap_eq_nil_iff.mpr fun s mem => silent s mem torn
        have bytes : log.flatMap Saying.bytes = [] :=
          List.flatMap_eq_nil_iff.mpr fun s mem => by
            rw [Saying.bytes, silent s mem torn]
            rfl
        rw [accepted, bytes]
        rfl
      · rw [between.mpr torn, ih later unbroken]
        rfl

end Stream

end Conduit

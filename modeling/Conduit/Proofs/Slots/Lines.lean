/-
# The two ends of a channel as two lines

The two ends of a channel over shared memory are used in any order: a run performs a list of
requests, each at one end, and logs what was asked and answered. Every request belongs to one
direction: sending belongs to the direction that starts at the end, receiving to the
direction that arrives there.

* `Line` — what a direction is for those who use it: a queue and two bells.
* `Models.step`, `Models.run` — the two ends answer as their two lines do.
-/

import Conduit.Proofs.Slots.Channel
import Mathlib.Logic.Function.Basic

namespace Conduit

namespace SlotChannel

/-- The two ends of a channel. -/
inductive Side where
  /-- The end that sends on the lower half. -/
  | first
  /-- The end that sends on the upper half. -/
  | second
  deriving DecidableEq

/-- The opposite end. -/
def Side.other : Side → Side
  | first => second
  | second => first

@[simp] theorem Side.other_other (side : Side) : side.other.other = side := by cases side <;> rfl

theorem Side.other_ne (side : Side) : side.other ≠ side := by cases side <;> decide

theorem Side.eq_or_eq_other (s side : Side) : s = side ∨ s = side.other := by
  cases s <;> cases side <;> decide

/-- What an end can be asked. -/
inductive Request where
  | send (payload : List UInt64)
  | receive (limit : Nat)
  | canReceive
  | takeNotification
  | notifyLocal (bell : BellId)
  | notifyRemote (bell : BellId)

/-- What an end answers. -/
inductive Reply where
  | sent (answer : Except Error Bool)
  | received (words : Option (List UInt64))
  | waiting (is : Bool)
  | notified (is : Bool)
  | switched (answer : Except Error Unit)

/-- The two ends and the machine they share. -/
structure Pair where
  /-- The machine. -/
  machine : Machine
  /-- The ends. -/
  ends : Side → SlotChannel

/-- The pair after something happened at one end. -/
def Pair.put (pair : Pair) (side : Side) (c : SlotChannel) (m : Machine) : Pair :=
  ⟨m, Function.update pair.ends side c⟩

/-- Performs a request at one end. -/
def Pair.step (pair : Pair) (side : Side) : Request → Except Panic (Reply × Pair)
  | .send payload => do
      let (answer, c, m) ← (pair.ends side).send payload pair.machine
      return (.sent answer, pair.put side c m)
  | .receive limit => do
      let (words, c, m) ← (pair.ends side).receive limit pair.machine
      return (.received words, pair.put side c m)
  | .canReceive => do
      let is ← (pair.ends side).canReceive pair.machine
      return (.waiting is, pair)
  | .takeNotification => do
      let (is, m) ← (pair.ends side).takeNotification pair.machine
      return (.notified is, { pair with machine := m })
  | .notifyLocal bell =>
      match (pair.ends side).notifyLocal bell with
      | .error e => .ok (.switched (.error e), pair)
      | .ok c => .ok (.switched (.ok ()), pair.put side c pair.machine)
  | .notifyRemote bell =>
      .ok (.switched (.ok ()), pair.put side ((pair.ends side).notifyRemote bell) pair.machine)

/-- One request of a run, with its answer. -/
structure Event where
  /-- The end that was asked. -/
  side : Side
  /-- What it was asked. -/
  request : Request
  /-- What it answered. -/
  reply : Reply

/-- Performs requests in order, and logs them with their answers. -/
def Pair.run : List (Side × Request) → Pair → Except Panic (List Event × Pair)
  | [], pair => .ok ([], pair)
  | (side, request) :: requests, pair => do
      let (reply, pair) ← pair.step side request
      let (log, pair) ← pair.run requests
      return (⟨side, request, reply⟩ :: log, pair)

namespace Event

/-- The end that was asked, and what it was asked. -/
def asked (e : Event) : Side × Request := (e.side, e.request)

/-- The payload that this event put in flight from `side`. -/
def accepted (side : Side) : Event → List (List UInt64)
  | ⟨at', .send payload, .sent (.ok true)⟩ => if at' = side then [payload] else []
  | _ => []

/-- The words that this event received from `side`, with the limit they were cut to. -/
def delivered (side : Side) : Event → List (Nat × List UInt64)
  | ⟨at', .receive limit, .received (some words)⟩ =>
      if at' = side.other then [(limit, words)] else []
  | _ => []

end Event

/-- The payloads from `side` that were accepted, in order. -/
def accepted (side : Side) (log : List Event) : List (List UInt64) :=
  log.flatMap (Event.accepted side)

/-- What was received from `side`, in order, each with the limit it was cut to. -/
def delivered (side : Side) (log : List Event) : List (Nat × List UInt64) :=
  log.flatMap (Event.delivered side)

/-- Received words are the first ones of the payload, up to the limit. -/
def Cut (got : Nat × List UInt64) (payload : List UInt64) : Prop := got.2 = payload.take got.1

/-! ### A direction as a queue -/

/-- What a direction is for those who use it. -/
structure Line where
  /-- The payloads in flight. -/
  queue : List (List UInt64) := []
  /-- The bell that the receiver waits for. -/
  localBell : Option BellId := none
  /-- The bell that the sender rings. -/
  remoteBell : Option BellId := none

/-- Tells whether the line accepts a payload. -/
def Line.accepts (width slots : Nat) (line : Line) (payload : List UInt64) : Bool :=
  payload.length ≤ width && line.queue.length < slots

/-- What a line answers. -/
def Line.reply (width slots : Nat) (line : Line) (bells : Bells) : Request → Reply
  | .send payload =>
      .sent (if width < payload.length then .error .invalidSize
        else .ok (line.accepts width slots payload))
  | .receive limit => .received (line.queue.head?.map (·.take limit))
  | .canReceive => .waiting (!line.queue.isEmpty)
  | .takeNotification =>
      .notified (match line.localBell with
        | none => !line.queue.isEmpty
        | some bell => (bells.get bell).pending)
  | .notifyLocal _ =>
      .switched (if line.localBell.isSome then .error .alreadyPinged else .ok ())
  | .notifyRemote _ => .switched (.ok ())

/-- What becomes of a line. -/
def Line.after (width slots : Nat) (line : Line) : Request → Line
  | .send payload =>
      if line.accepts width slots payload then
        { line with queue := line.queue ++ [pad width payload] }
      else line
  | .receive _ => { line with queue := line.queue.tail }
  | .canReceive => line
  | .takeNotification => line
  | .notifyLocal bell => { line with localBell := line.localBell.or (some bell) }
  | .notifyRemote bell => { line with remoteBell := some bell }

/-- The bell that a request touches, and what it does to the bell. -/
def Line.touches (width slots : Nat) (line : Line) : Request → Option (BellId × (Bell → Bell))
  | .send payload =>
      if line.accepts width slots payload then line.remoteBell.map (·, Bell.ring) else none
  | .takeNotification => line.localBell.map (·, fun bell => bell.take.2)
  | .receive _ | .canReceive | .notifyLocal _ | .notifyRemote _ => none

/-- The bells after one of them was touched. -/
def touch (bells : Bells) : Option (BellId × (Bell → Bell)) → Bells
  | none => bells
  | some (id, change) => ⟨bells.all.modify id.number change⟩

/-- The direction that a request at one end belongs to, named by its sender. -/
def Request.direction (side : Side) : Request → Side
  | .send _ | .notifyRemote _ => side
  | .receive _ | .canReceive | .takeNotification | .notifyLocal _ => side.other

/-- Tells whether a request belongs to the direction that starts at `side`. -/
def belongs (side : Side) (asked : Side × Request) : Bool := asked.2.direction asked.1 = side

/-- The bell that a request names. -/
def Request.bell? : Request → Option BellId
  | .notifyLocal bell | .notifyRemote bell => some bell
  | .send _ | .receive _ | .canReceive | .takeNotification => none

/-- The bell that the end waits for from this request on, if it did not wait for one before. -/
def Request.awaits? : Request → Option BellId
  | .notifyLocal bell => some bell
  | .send _ | .receive _ | .canReceive | .takeNotification | .notifyRemote _ => none

theorem Request.bell?_of_awaits? {request : Request} {bell : BellId}
    (awaits : request.awaits? = some bell) : request.bell? = some bell := by
  cases request with
  | notifyLocal _ => exact awaits
  | _ => cases awaits

/-- A request of the direction that starts at `side` names the bell. -/
def Names (requests : List (Side × Request)) (side : Side) (bell : BellId) : Prop :=
  ∃ asked ∈ requests, belongs side asked = true ∧ asked.2.bell? = some bell

/-- No bell is named in both directions. -/
def SeparateBells (requests : List (Side × Request)) : Prop :=
  ∀ side bell, Names requests side bell → ¬ Names requests side.other bell

/-- Two logs of one direction, whose receiver waits for a bell or for none before, agree but for
what the receiver is told about notifications while it waits for one of these bells. -/
inductive AgreeBut (theirs : BellId → Prop) : Option BellId → List Event → List Event → Prop
  | nil {own : Option BellId} : AgreeBut theirs own [] []
  | same {own : Option BellId} {log log' : List Event} (e : Event)
      (rest : AgreeBut theirs (own.or e.request.awaits?) log log') :
      AgreeBut theirs own (e :: log) (e :: log')
  | told {bell : BellId} {side : Side} {is is' : Bool} {log log' : List Event}
      (shared : theirs bell) (rest : AgreeBut theirs (some bell) log log') :
      AgreeBut theirs (some bell) (⟨side, .takeNotification, .notified is⟩ :: log)
        (⟨side, .takeNotification, .notified is'⟩ :: log')

/-- The lines of both directions, and the bells. -/
structure Lines where
  /-- The lines, each named by its sender. -/
  line : Side → Line
  /-- The bells. -/
  bells : Bells

/-- The lines after something happened to one of them. -/
def Lines.put (lines : Lines) (direction : Side) (line : Line) (bells : Bells) : Lines :=
  ⟨Function.update lines.line direction line, bells⟩

/-- What the line that a request belongs to answers, and what becomes of both. -/
def Lines.step (width slots : Nat) (lines : Lines) (side : Side) (request : Request) :
    Reply × Lines :=
  let line := lines.line (request.direction side)
  (line.reply width slots lines.bells request,
    lines.put (request.direction side) (line.after width slots request)
      (touch lines.bells (line.touches width slots request)))

/-- Answers requests in order, and logs them with their answers. -/
def Lines.run (width slots : Nat) : List (Side × Request) → Lines → List Event × Lines
  | [], lines => ([], lines)
  | (side, request) :: requests, lines =>
      let (reply, lines) := lines.step width slots side request
      let (log, lines) := lines.run width slots requests
      (⟨side, request, reply⟩ :: log, lines)

/-! ### The two ends answer as their lines do -/

variable {width slots : Nat} {pair : Pair} {lines : Lines} {side : Side}

@[simp] theorem Pair.ends_put (pair : Pair) (side : Side) (c : SlotChannel) (m : Machine) :
    (pair.put side c m).ends side = c := Function.update_self ..

@[simp] theorem Pair.ends_put_other (pair : Pair) (side : Side) (c : SlotChannel) (m : Machine) :
    (pair.put side c m).ends side.other = pair.ends side.other :=
  Function.update_of_ne side.other_ne ..

@[simp] theorem Pair.put_self (pair : Pair) (side : Side) :
    pair.put side (pair.ends side) pair.machine = pair := by
  rw [Pair.put, Function.update_eq_self]

@[simp] theorem Lines.line_put (lines : Lines) (direction : Side) (line : Line) (bells : Bells) :
    (lines.put direction line bells).line direction = line := Function.update_self ..

theorem Lines.line_put_of_ne (lines : Lines) {s direction : Side} (h : s ≠ direction)
    (line : Line) (bells : Bells) : (lines.put direction line bells).line s = lines.line s :=
  Function.update_of_ne h ..

@[simp] theorem Lines.put_self (lines : Lines) (direction : Side) :
    lines.put direction (lines.line direction) lines.bells = lines := by
  rw [Lines.put, Function.update_eq_self]

/-- The ends are joined with the queues of their lines in flight, and know the bells
of their lines. -/
structure Models (width slots : Nat) (pair : Pair) (lines : Lines) : Prop where
  joined : ∀ side, Joined pair.machine.memory (pair.ends side) (pair.ends side.other)
    (lines.line side).queue (lines.line side.other).queue
  width_eq : ∀ side, (pair.ends side).payloadWords = width
  slots_eq : ∀ side, (pair.ends side).slots = slots
  localBell : ∀ side, (pair.ends side).localBell = (lines.line side.other).localBell
  remoteBell : ∀ side, (pair.ends side).remoteBell = (lines.line side).remoteBell
  bells : pair.machine.bells = lines.bells

namespace Models

/-- It is enough to look at the channel from the end where something happened. -/
theorem put (models : Models width slots pair lines) {c : SlotChannel} {m : Machine}
    {lines' : Lines}
    (joined : Joined m.memory c (pair.ends side.other) (lines'.line side).queue
      (lines'.line side.other).queue)
    (same : c.payloadWords = width ∧ c.slots = slots)
    (here : c.localBell = (lines'.line side.other).localBell ∧
      c.remoteBell = (lines'.line side).remoteBell)
    (there : (lines'.line side).localBell = (lines.line side).localBell ∧
      (lines'.line side.other).remoteBell = (lines.line side.other).remoteBell)
    (bells : m.bells = lines'.bells) : Models width slots (pair.put side c m) lines' where
  joined s := by
    rcases s.eq_or_eq_other side with rfl | rfl
    · rw [Pair.ends_put, Pair.ends_put_other]
      exact joined
    · rw [Side.other_other, Pair.ends_put, Pair.ends_put_other]
      exact joined.symm
  width_eq s := by
    rcases s.eq_or_eq_other side with rfl | rfl
    · rw [Pair.ends_put, same.1]
    · rw [Pair.ends_put_other, models.width_eq]
  slots_eq s := by
    rcases s.eq_or_eq_other side with rfl | rfl
    · rw [Pair.ends_put, same.2]
    · rw [Pair.ends_put_other, models.slots_eq]
  localBell s := by
    rcases s.eq_or_eq_other side with rfl | rfl
    · rw [Pair.ends_put, here.1]
    · rw [Pair.ends_put_other, models.localBell, Side.other_other, there.1]
  remoteBell s := by
    rcases s.eq_or_eq_other side with rfl | rfl
    · rw [Pair.ends_put, here.2]
    · rw [Pair.ends_put_other, models.remoteBell, there.2]
  bells := bells

/-- Something happened to the direction that starts at this end. -/
theorem put_out (models : Models width slots pair lines) {c : SlotChannel} {m : Machine}
    {line : Line} (joined : Joined m.memory c (pair.ends side.other) line.queue
      (lines.line side.other).queue)
    (same : c.payloadWords = (pair.ends side).payloadWords ∧ c.slots = (pair.ends side).slots)
    (localBell : c.localBell = (pair.ends side).localBell ∧
      line.localBell = (lines.line side).localBell)
    (remoteBell : c.remoteBell = line.remoteBell) :
    Models width slots (pair.put side c m) (lines.put side line m.bells) := by
  have away := lines.line_put_of_ne side.other_ne line m.bells
  apply models.put
  · rw [Lines.line_put, away]
    exact joined
  · exact ⟨same.1.trans (models.width_eq side), same.2.trans (models.slots_eq side)⟩
  · rw [Lines.line_put, away]
    exact ⟨localBell.1.trans (models.localBell side), remoteBell⟩
  · rw [Lines.line_put, away]
    exact ⟨localBell.2, rfl⟩
  · rfl

/-- Something happened to the direction that arrives at this end. -/
theorem put_in (models : Models width slots pair lines) {c : SlotChannel} {m : Machine}
    {line : Line} (joined : Joined m.memory c (pair.ends side.other) (lines.line side).queue
      line.queue)
    (same : c.payloadWords = (pair.ends side).payloadWords ∧ c.slots = (pair.ends side).slots)
    (remoteBell : c.remoteBell = (pair.ends side).remoteBell ∧
      line.remoteBell = (lines.line side.other).remoteBell)
    (localBell : c.localBell = line.localBell) :
    Models width slots (pair.put side c m) (lines.put side.other line m.bells) := by
  have away := lines.line_put_of_ne (Ne.symm side.other_ne) line m.bells
  apply models.put
  · rw [Lines.line_put, away]
    exact joined
  · exact ⟨same.1.trans (models.width_eq side), same.2.trans (models.slots_eq side)⟩
  · rw [Lines.line_put, away]
    exact ⟨localBell, remoteBell.1.trans (models.remoteBell side)⟩
  · rw [Lines.line_put, away]
    exact ⟨rfl, remoteBell.2⟩
  · rfl

/-- A payload that does not fit is refused, and nothing changes. -/
theorem step_send_long (models : Models width slots pair lines) (side : Side)
    {payload : List UInt64} (long : width < payload.length) :
    pair.step side (.send payload) = .ok (.sent (.error .invalidSize), pair) := by
  rw [← models.width_eq side] at long
  simp only [Pair.step, send_oversized long, bind, Except.bind, Pair.put_self]
  rfl

/-- A full direction refuses a payload, and nothing changes. -/
theorem step_send_full (models : Models width slots pair lines) (side : Side)
    {payload : List UInt64} (fits : payload.length ≤ width)
    (full : (lines.line side).queue.length = slots) :
    pair.step side (.send payload) = .ok (.sent (.ok false), pair) := by
  rw [← models.width_eq side] at fits
  rw [← models.slots_eq side] at full
  simp only [Pair.step, send_full (models.joined side) fits full, bind, Except.bind,
    Pair.put_self]
  rfl

/-- Any other payload is accepted, and goes behind those in flight. -/
theorem step_send_space (models : Models width slots pair lines) (side : Side)
    {payload : List UInt64} (fits : payload.length ≤ width)
    (space : (lines.line side).queue.length < slots) :
    ∃ after, pair.step side (.send payload) = .ok (.sent (.ok true), after) ∧
      Models width slots after (lines.put side
        { lines.line side with queue := (lines.line side).queue ++ [pad width payload] }
        (touch lines.bells ((lines.line side).remoteBell.map (·, Bell.ring)))) := by
  have joined := models.joined side
  have rung : (pair.ends side).announce pair.machine.bells =
      touch lines.bells ((lines.line side).remoteBell.map (·, Bell.ring)) := by
    unfold SlotChannel.announce
    rw [models.remoteBell, models.bells]
    cases (lines.line side).remoteBell with
    | none => rfl
    | some bell => rfl
  have sent := joined.afterSend payload (models.slots_eq side ▸ space)
  rw [models.width_eq side] at sent
  refine ⟨pair.put side ((pair.ends side).afterSend payload pair.machine).1
    ((pair.ends side).afterSend payload pair.machine).2, ?_, ?_⟩
  · rw [← models.width_eq side] at fits
    rw [← models.slots_eq side] at space
    simp only [Pair.step, send_space joined fits space, bind, Except.bind]
    rfl
  · rw [← rung]
    exact models.put_out sent ⟨rfl, rfl⟩ ⟨rfl, rfl⟩ (models.remoteBell side)

theorem step_send (models : Models width slots pair lines) (side : Side) (payload : List UInt64) :
    ∃ after, pair.step side (.send payload) =
        .ok ((lines.step width slots side (.send payload)).1, after) ∧
      Models width slots after (lines.step width slots side (.send payload)).2 := by
  unfold Lines.step Line.reply Line.after Line.touches Line.accepts
  by_cases long : width < payload.length
  · simp only [long, if_true, Nat.not_le.mpr long, decide_false, Bool.false_and, touch,
      Bool.false_eq_true, if_false, Request.direction, Lines.put_self]
    exact ⟨pair, models.step_send_long side long, models⟩
  have fits : payload.length ≤ width := by omega
  have bounded := (models.joined side).bounded
  rw [models.slots_eq] at bounded
  by_cases space : (lines.line side).queue.length < slots
  · simp only [long, if_false, fits, decide_true, Bool.true_and, Request.direction, space, if_true]
    exact models.step_send_space side fits space
  · simp only [long, if_false, fits, decide_true, Bool.true_and, Request.direction, space,
      decide_false, Bool.false_eq_true, touch, Lines.put_self]
    exact ⟨pair, models.step_send_full side fits (by omega), models⟩

/-- An end can receive exactly if a payload is in flight to it. -/
theorem step_canReceive (models : Models width slots pair lines) (side : Side) :
    pair.step side .canReceive =
      .ok (.waiting (!(lines.line side.other).queue.isEmpty), pair) := by
  simp only [Pair.step, canReceive_eq (models.joined side).symm, bind, Except.bind]
  rfl

/-- Nothing is received when nothing is in flight, and nothing changes. -/
theorem step_receive_nil (models : Models width slots pair lines) (side : Side)
    (empty : (lines.line side.other).queue = []) (limit : Nat) :
    pair.step side (.receive limit) = .ok (.received none, pair) := by
  have joined := (models.joined side).symm
  rw [empty] at joined
  simp only [Pair.step, receive_nil joined, bind, Except.bind, Pair.put_self]
  rfl

/-- The oldest payload in flight is received, cut to the limit. -/
theorem step_receive_cons (models : Models width slots pair lines) (side : Side)
    {words : List UInt64} {rest : List (List UInt64)}
    (queue : (lines.line side.other).queue = words :: rest) (limit : Nat) :
    ∃ after, pair.step side (.receive limit) = .ok (.received (some (words.take limit)), after) ∧
      Models width slots after
        (lines.put side.other { lines.line side.other with queue := rest } lines.bells) := by
  have joined := (models.joined side).symm
  rw [queue] at joined
  refine ⟨pair.put side ((pair.ends side).afterReceive pair.machine).1
    ((pair.ends side).afterReceive pair.machine).2, ?_, ?_⟩
  · simp only [Pair.step, receive_cons joined, bind, Except.bind]
    rfl
  · rw [← models.bells]
    exact models.put_in joined.afterReceive.symm ⟨rfl, rfl⟩ ⟨rfl, rfl⟩ (models.localBell side)

theorem step_receive (models : Models width slots pair lines) (side : Side) (limit : Nat) :
    ∃ after, pair.step side (.receive limit) =
        .ok ((lines.step width slots side (.receive limit)).1, after) ∧
      Models width slots after (lines.step width slots side (.receive limit)).2 := by
  unfold Lines.step Line.reply Line.after Line.touches touch
  cases queue : (lines.line side.other).queue with
  | nil =>
      have same : ({ lines.line side.other with queue := [].tail } : Line) =
          lines.line side.other := by
        rw [List.tail_nil, ← queue]
      simp only [Request.direction, queue, same, Lines.put_self]
      exact ⟨pair, models.step_receive_nil side queue limit, models⟩
  | cons words rest =>
      simp only [Request.direction, queue]
      exact models.step_receive_cons side queue limit

theorem step_takeNotification (models : Models width slots pair lines) (side : Side) :
    ∃ after, pair.step side .takeNotification =
        .ok ((lines.step width slots side .takeNotification).1, after) ∧
      Models width slots after (lines.step width slots side .takeNotification).2 := by
  have known := models.localBell side
  unfold Lines.step Line.reply Line.after Line.touches
  cases bell : (lines.line side.other).localBell with
  | none =>
      rw [bell] at known
      simp only [Request.direction, bell, Option.map_none, touch, Lines.put_self, Pair.step,
        takeNotification, known, canReceive_eq (models.joined side).symm, bind, Except.bind]
      exact ⟨_, rfl, models⟩
  | some bell' =>
      rw [bell] at known
      simp only [Request.direction, bell, Option.map_some, touch, Lines.put,
        Function.update_eq_self, Pair.step, takeNotification, known, bind, Except.bind, Bells.take,
        models.bells]
      exact ⟨_, rfl, { models with bells := rfl }⟩

theorem step_notifyLocal (models : Models width slots pair lines) (side : Side) (bell : BellId) :
    ∃ after, pair.step side (.notifyLocal bell) =
        .ok ((lines.step width slots side (.notifyLocal bell)).1, after) ∧
      Models width slots after (lines.step width slots side (.notifyLocal bell)).2 := by
  have known := models.localBell side
  unfold Lines.step Line.reply Line.after Line.touches touch
  cases old : (lines.line side.other).localBell with
  | none =>
      rw [old] at known
      simp only [Request.direction, old, Pair.step, notifyLocal, known, ← models.bells]
      exact ⟨_, rfl, models.put_in { models.joined side with } ⟨rfl, rfl⟩ ⟨rfl, rfl⟩ rfl⟩
  | some old' =>
      have same : ({ lines.line side.other with localBell := (some old').or (some bell) } : Line) =
          lines.line side.other := by
        rw [Option.some_or, ← old]
      rw [old] at known
      simp only [Request.direction, old, same, Lines.put_self, Pair.step, notifyLocal, known]
      exact ⟨pair, rfl, models⟩

theorem step_notifyRemote (models : Models width slots pair lines) (side : Side) (bell : BellId) :
    ∃ after, pair.step side (.notifyRemote bell) =
        .ok ((lines.step width slots side (.notifyRemote bell)).1, after) ∧
      Models width slots after (lines.step width slots side (.notifyRemote bell)).2 := by
  refine ⟨_, rfl, ?_⟩
  simp only [Lines.step, Line.after, Line.touches, touch, Request.direction, ← models.bells]
  exact models.put_out { models.joined side with } ⟨rfl, rfl⟩ ⟨rfl, rfl⟩ rfl

/-- An end answers any request as its line does. -/
theorem step (models : Models width slots pair lines) (side : Side) (request : Request) :
    ∃ after, pair.step side request = .ok ((lines.step width slots side request).1, after) ∧
      Models width slots after (lines.step width slots side request).2 := by
  cases request with
  | send payload => exact models.step_send side payload
  | receive limit => exact models.step_receive side limit
  | canReceive =>
      simp only [Lines.step, Line.reply, Line.after, Line.touches, touch, Request.direction,
        Lines.put_self]
      exact ⟨pair, models.step_canReceive side, models⟩
  | takeNotification => exact models.step_takeNotification side
  | notifyLocal bell => exact models.step_notifyLocal side bell
  | notifyRemote bell => exact models.step_notifyRemote side bell

/-- The two ends answer any requests as their lines do. -/
theorem run (models : Models width slots pair lines) (requests : List (Side × Request)) :
    ∃ after, pair.run requests = .ok ((lines.run width slots requests).1, after) ∧
      Models width slots after (lines.run width slots requests).2 := by
  induction requests generalizing pair lines with
  | nil => exact ⟨pair, rfl, models⟩
  | cons asked requests ih =>
      obtain ⟨side, request⟩ := asked
      obtain ⟨next, stepped, models'⟩ := models.step side request
      obtain ⟨after, ran, models''⟩ := ih models'
      refine ⟨after, ?_, models''⟩
      simp only [Pair.run, stepped, ran, bind, Except.bind]
      rfl

end Models

end SlotChannel

end Conduit

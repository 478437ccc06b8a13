/-
# A channel over shared memory is a bounded queue in each direction

`run_bounded_fifo` says that each direction is a queue of as many payloads as the pane has
slots, and that the requests of the other direction might as well not have happened, but for
what a bell tells that both directions name (`shared_bell_tells_one`).

* `Lines.run_accounts` — how the queue of a line follows from the log.
* `Alike.run` — the requests of the other direction leave no trace but in shared bells.
-/

import Conduit.Proofs.Slots.Lines
import Mathlib.Data.List.Forall2

namespace Conduit

namespace SlotChannel

variable {width slots : Nat} {pair : Pair} {lines : Lines} {side : Side}

/-! ### The log accounts for the queue -/

/-- What was in flight and what was accepted since is, in order, what was delivered
since and what is in flight now. -/
def Accounts (width : Nat) (before : Line) (accepted : List (List UInt64))
    (delivered : List (Nat × List UInt64)) (after : Line) : Prop :=
  ∃ whole, before.queue ++ accepted.map (pad width) = whole ++ after.queue ∧
    List.Forall₂ Cut delivered whole

namespace Accounts

variable {before after : Line}

/-- Nothing was put in flight or taken out. -/
theorem idle (same : after.queue = before.queue) : Accounts width before [] [] after :=
  ⟨[], by rw [same]; exact List.append_nil _, .nil⟩

theorem trans {next : Line} {accepted accepted' : List (List UInt64)}
    {delivered delivered' : List (Nat × List UInt64)}
    (first : Accounts width before accepted delivered next)
    (second : Accounts width next accepted' delivered' after) :
    Accounts width before (accepted ++ accepted') (delivered ++ delivered') after := by
  obtain ⟨whole, joined, cut⟩ := first
  obtain ⟨whole', joined', cut'⟩ := second
  refine ⟨whole ++ whole', ?_, List.rel_append cut cut'⟩
  rw [List.map_append, ← List.append_assoc, joined, List.append_assoc, joined', List.append_assoc]

end Accounts

/-- One request changes the queue of its line by what it logs. -/
theorem Line.after_accounts (width slots : Nat) (line : Line) (bells : Bells) (side at' : Side)
    (request : Request) (here : request.direction at' = side) :
    Accounts width line (Event.accepted side ⟨at', request, line.reply width slots bells request⟩)
      (Event.delivered side ⟨at', request, line.reply width slots bells request⟩)
      (line.after width slots request) := by
  cases request with
  | send payload =>
      change at' = side at here
      cases accepts : line.accepts width slots payload with
      | false =>
          by_cases long : width < payload.length
          · simp only [reply, after, accepts, if_pos long]
            exact .idle rfl
          · simp only [reply, after, accepts, if_neg long]
            exact .idle rfl
      | true =>
          have fits : payload.length ≤ width := by
            rw [Line.accepts, Bool.and_eq_true, decide_eq_true_eq] at accepts
            exact accepts.1
          simp only [reply, after, accepts, if_neg (Nat.not_lt.mpr fits), if_true]
          refine ⟨[], ?_, .nil⟩
          rw [Event.accepted, if_pos here]
          rfl
  | receive limit =>
      have there : at' = side.other := by rw [← here, Request.direction, Side.other_other]
      simp only [reply, after]
      cases queue : line.queue with
      | nil => exact .idle queue.symm
      | cons words rest =>
          refine ⟨[words], ?_, ?_⟩
          · rw [queue]
            exact List.append_nil _
          · simp only [List.head?_cons, Option.map_some, Event.delivered, if_pos there]
            exact .cons rfl .nil
  | canReceive => exact .idle rfl
  | takeNotification => exact .idle rfl
  | notifyLocal bell => exact .idle rfl
  | notifyRemote bell => exact .idle rfl

/-- A request logs nothing for a direction that it does not belong to. -/
theorem Event.silent {side at' : Side} {request : Request} (away : request.direction at' ≠ side)
    (reply : Reply) :
    Event.accepted side ⟨at', request, reply⟩ = [] ∧
      Event.delivered side ⟨at', request, reply⟩ = [] := by
  constructor
  · unfold Event.accepted
    split
    · rename_i same
      cases same
      exact if_neg away
    · rfl
  · unfold Event.delivered
    split
    · rename_i same
      cases same
      apply if_neg
      rintro rfl
      exact away side.other_other
    · rfl

/-- One request changes the queue of every line by what it logs. -/
theorem Lines.step_accounts (width slots : Nat) (lines : Lines) (side at' : Side)
    (request : Request) :
    let answer := lines.step width slots at' request
    Accounts width (lines.line side) (Event.accepted side ⟨at', request, answer.1⟩)
      (Event.delivered side ⟨at', request, answer.1⟩) (answer.2.line side) := by
  by_cases here : request.direction at' = side
  · subst here
    simp only [Lines.step, Lines.line_put]
    exact Line.after_accounts _ _ _ _ _ _ _ rfl
  · simp only [Lines.step, Event.silent here, lines.line_put_of_ne (Ne.symm here)]
    exact .idle rfl

/-- A run changes the queue of every line by what it logs. -/
theorem Lines.run_accounts (width slots : Nat) (lines : Lines) (side : Side)
    (requests : List (Side × Request)) :
    let run := lines.run width slots requests
    Accounts width (lines.line side) (accepted side run.1) (delivered side run.1)
      (run.2.line side) := by
  induction requests generalizing lines with
  | nil => exact .idle rfl
  | cons asked requests ih =>
      exact (lines.step_accounts width slots side asked.1 asked.2).trans (ih _)

/-- The log lists the requests. -/
theorem Lines.run_asked (width slots : Nat) (lines : Lines) (requests : List (Side × Request)) :
    (lines.run width slots requests).1.map Event.asked = requests := by
  induction requests generalizing lines with
  | nil => rfl
  | cons asked requests ih => exact congrArg _ (ih _)

/-! ### The other direction leaves no trace -/

/-- The bell is one of those that the line uses. -/
def Line.Uses (line : Line) (bell : BellId) : Prop :=
  line.localBell = some bell ∨ line.remoteBell = some bell

section

variable {line : Line} {bells bells' : Bells} {request : Request} {bell : BellId}

/-- The receiver waits for the first bell that it was switched to. -/
theorem Line.localBell_after (width slots : Nat) (line : Line) (request : Request) :
    (line.after width slots request).localBell = line.localBell.or request.awaits? := by
  cases request with
  | send payload =>
      rw [after, Request.awaits?, Option.or_none]
      split
      · rfl
      · rfl
  | notifyLocal bell => rfl
  | _ => exact Option.or_none.symm

theorem Line.uses_after (uses : (line.after width slots request).Uses bell) :
    line.Uses bell ∨ request.bell? = some bell := by
  cases request with
  | send payload =>
      simp only [after] at uses
      split at uses
      · exact .inl uses
      · exact .inl uses
  | receive limit => exact .inl uses
  | canReceive => exact .inl uses
  | takeNotification => exact .inl uses
  | notifyLocal bell' =>
      rcases uses with here | there
      · rcases Option.or_eq_some_iff.mp here with old | ⟨-, new⟩
        · exact .inl (.inl old)
        · exact .inr new
      · exact .inl (.inr there)
  | notifyRemote bell' =>
      rcases uses with here | there
      · exact .inl (.inl here)
      · exact .inr there

/-- A line touches only the bells it uses. -/
theorem Line.uses_of_touches {change : Bell → Bell}
    (touched : line.touches width slots request = some (bell, change)) : line.Uses bell := by
  unfold touches at touched
  split at touched
  · split at touched
    · obtain ⟨bell', known, same⟩ := Option.map_eq_some_iff.mp touched
      cases same
      exact .inr known
    · cases touched
  · obtain ⟨bell', known, same⟩ := Option.map_eq_some_iff.mp touched
    cases same
    exact .inl known
  all_goals cases touched

/-- Only answers about notifications depend on the bells, and only on the one that the
receiver waits for. -/
theorem Line.reply_congr (heard : request = .takeNotification →
      ∀ bell, line.localBell = some bell →
        bells.all[bell.number]? = bells'.all[bell.number]?) :
    line.reply width slots bells request = line.reply width slots bells' request := by
  cases request with
  | takeNotification =>
      unfold reply
      cases known : line.localBell with
      | none => rfl
      | some bell =>
          simp only [Bells.get, Array.getD_eq_getD_getElem?, heard rfl bell known]
  | send payload => rfl
  | receive limit => rfl
  | canReceive => rfl
  | notifyLocal bell' => rfl
  | notifyRemote bell' => rfl

/-- What becomes of a bell depends on no other bell. -/
theorem touch_congr (same : bells.all[bell.number]? = bells'.all[bell.number]?)
    (touched : Option (BellId × (Bell → Bell))) :
    (touch bells touched).all[bell.number]? = (touch bells' touched).all[bell.number]? := by
  cases touched with
  | none => exact same
  | some touched => simp only [touch, Array.getElem?_modify, same]

/-- A bell that a line does not use is left alone. -/
theorem Line.touch_away (away : ¬ line.Uses bell) :
    (touch bells (line.touches width slots request)).all[bell.number]? =
      bells.all[bell.number]? := by
  cases touched : line.touches width slots request with
  | none => rfl
  | some touched' =>
      obtain ⟨⟨number⟩, change⟩ := touched'
      have ne : number ≠ bell.number := by
        rintro rfl
        exact away (Line.uses_of_touches touched)
      simp only [touch, Array.getElem?_modify, if_neg ne]

end

/-- Two runs, the second without the requests of one direction. Bells that this direction does
not name are in the same state. -/
structure Alike (theirs : BellId → Prop) (side : Side) (whole alone : Lines) : Prop where
  line : whole.line side = alone.line side
  others : ∀ bell, (whole.line side.other).Uses bell → theirs bell
  unshared : ∀ bell, ¬ theirs bell →
    whole.bells.all[bell.number]? = alone.bells.all[bell.number]?

namespace Alike

variable {theirs : BellId → Prop} {whole alone : Lines} {at' : Side} {request : Request}

/-- Both runs perform a request that belongs to the direction. -/
theorem step_here (width slots : Nat) (alike : Alike theirs side whole alone)
    (here : request.direction at' = side) :
    Alike theirs side (whole.step width slots at' request).2
      (alone.step width slots at' request).2 := by
  subst here
  constructor
  · simp only [Lines.step, Lines.line_put, alike.line]
  · intro bell uses
    simp only [Lines.step, Lines.line_put_of_ne _ (Side.other_ne _)] at uses
    exact alike.others bell uses
  · intro bell mine
    simp only [Lines.step, ← alike.line]
    exact touch_congr (alike.unshared bell mine) _

/-- Both answer it alike, unless the receiver waits for a bell that the other direction names. -/
theorem reply_here (width slots : Nat) (alike : Alike theirs side whole alone)
    (here : request.direction at' = side) :
    (whole.step width slots at' request).1 = (alone.step width slots at' request).1 ∨
      request = .takeNotification ∧
        ∃ bell, (whole.line side).localBell = some bell ∧ theirs bell := by
  subst here
  simp only [Lines.step, ← alike.line]
  by_cases shared : request = .takeNotification ∧
      ∃ bell, (whole.line (request.direction at')).localBell = some bell ∧ theirs bell
  · exact .inr shared
  · exact .inl (Line.reply_congr fun asked bell waits =>
      alike.unshared bell fun named => shared ⟨asked, bell, waits, named⟩)

/-- Only the first run performs a request that belongs to the other direction. -/
theorem step_away (width slots : Nat) (alike : Alike theirs side whole alone)
    (away : request.direction at' = side.other)
    (named : ∀ bell, request.bell? = some bell → theirs bell) :
    Alike theirs side (whole.step width slots at' request).2 alone := by
  have ne : side ≠ side.other := Ne.symm side.other_ne
  constructor
  · simp only [Lines.step, away, Lines.line_put_of_ne _ ne, alike.line]
  · intro bell uses
    simp only [Lines.step, away, Lines.line_put] at uses
    rcases Line.uses_after uses with old | new
    · exact alike.others bell old
    · exact named bell new
  · intro bell mine
    simp only [Lines.step, away]
    have unused : ¬ (whole.line side.other).Uses bell := fun uses => mine (alike.others bell uses)
    exact (Line.touch_away unused).trans (alike.unshared bell mine)

/-- Without the requests of the other direction, the same is logged for this one, but for what
its receiver is told by a bell that the other direction names. -/
theorem run (width slots : Nat) (alike : Alike theirs side whole alone)
    (requests : List (Side × Request))
    (named : ∀ bell, Names requests side.other bell → theirs bell) :
    AgreeBut theirs (whole.line side).localBell
      ((whole.run width slots requests).1.filter fun e => belongs side e.asked)
      (alone.run width slots (requests.filter (belongs side))).1 := by
  induction requests generalizing whole alone with
  | nil => exact .nil
  | cons asked requests ih =>
      obtain ⟨at', request⟩ := asked
      have named' : ∀ bell, Names requests side.other bell → theirs bell := by
        rintro bell ⟨asked, mem, names⟩
        exact named bell ⟨asked, List.mem_cons_of_mem _ mem, names⟩
      rcases (request.direction at').eq_or_eq_other side with here | away
      · have kept : belongs side (at', request) = true := decide_eq_true here
        have later := ih (alike.step_here width slots here) named'
        have waits : ((whole.step width slots at' request).2.line side).localBell =
            (whole.line side).localBell.or request.awaits? := by
          rw [← here]
          simp only [Lines.step, Lines.line_put]
          exact Line.localBell_after _ _ _ _
        rw [waits] at later
        simp only [Lines.run, List.filter_cons, Event.asked, kept, if_true]
        rcases alike.reply_here width slots here with same | ⟨rfl, bell, own, shared⟩
        · rw [same]
          exact .same _ later
        · rw [own] at later ⊢
          exact .told shared later
      · have dropped : belongs side (at', request) = false := by
          refine decide_eq_false ?_
          rw [away]
          exact side.other_ne
        have alike' := alike.step_away width slots away fun bell names =>
          named bell ⟨_, List.mem_cons_self, decide_eq_true away, names⟩
        have still : ((whole.step width slots at' request).2.line side).localBell =
            (whole.line side).localBell := by rw [alike'.line, alike.line]
        have later := ih alike' named'
        rw [still] at later
        simp only [Lines.run, List.filter_cons, Event.asked, dropped, Bool.false_eq_true, if_false]
        exact later

end Alike

/-- Logs that agree but for what some bells tell are the same where none of these bells is waited
for. -/
theorem AgreeBut.eq {theirs : BellId → Prop} {own : Option BellId} {log log' : List Event}
    (agree : AgreeBut theirs own log log') (apart : ∀ bell, theirs bell →
      own ≠ some bell ∧ ∀ e ∈ log, e.request.bell? ≠ some bell) : log = log' := by
  induction agree with
  | nil => rfl
  | @same own log log' e rest ih =>
      refine congrArg _ (ih fun bell named => ⟨?_, fun e' mem =>
        (apart bell named).2 e' (List.mem_cons_of_mem _ mem)⟩)
      rw [Ne, Option.or_eq_some_iff, not_or]
      refine ⟨(apart bell named).1, fun waits => ?_⟩
      exact (apart bell named).2 e List.mem_cons_self (Request.bell?_of_awaits? waits.2)
  | told shared rest ih => exact absurd rfl (apart _ shared).1

/-! ### Every run from a new channel -/

/-- The two ends of a channel on a machine. -/
def Pair.start (m : Machine) (a b : SlotChannel) : Pair :=
  ⟨m, fun | .first => a | .second => b⟩

/-- The number of payloads from `side` that the log leaves in flight. -/
def inFlight (side : Side) (log : List Event) : Nat :=
  (accepted side log).length - (delivered side log).length

/-- After the requests of the log, the direction that starts at `side` is a queue of
`slots` payloads of `width` words. -/
structure BoundedFifo (width slots : Nat) (side : Side) (log : List Event) (pair : Pair) :
    Prop where
  /-- What was received is, in order, a prefix of what was accepted, padded to whole
  payloads and cut to the limits of the receiver. -/
  inOrder : ∃ whole, whole <+: (accepted side log).map (pad width) ∧
    List.Forall₂ Cut (delivered side log) whole
  bounded : inFlight side log ≤ slots
  /-- Exactly payloads that are too long are refused as such, and change nothing. -/
  oversized : ∀ payload, width < payload.length →
    pair.step side (.send payload) = .ok (.sent (.error .invalidSize), pair)
  /-- A payload that fits is refused exactly if all slots are in flight, and changes nothing. -/
  full : ∀ payload, payload.length ≤ width → inFlight side log = slots →
    pair.step side (.send payload) = .ok (.sent (.ok false), pair)
  space : ∀ payload, payload.length ≤ width → inFlight side log < slots →
    ∃ after, pair.step side (.send payload) = .ok (.sent (.ok true), after)
  /-- A payload can be received exactly if one is in flight. -/
  waiting : pair.step side.other .canReceive =
    .ok (.waiting (decide (0 < inFlight side log)), pair)
  empty : inFlight side log = 0 → ∀ limit,
    pair.step side.other (.receive limit) = .ok (.received none, pair)
  some : 0 < inFlight side log → ∀ limit, ∃ words after,
    pair.step side.other (.receive limit) = .ok (.received (some words), after)

theorem Accounts.length_eq {before after : Line} {accepted : List (List UInt64)}
    {delivered : List (Nat × List UInt64)}
    (accounts : Accounts width before accepted delivered after) :
    before.queue.length + accepted.length = delivered.length + after.queue.length := by
  obtain ⟨whole, joined, cut⟩ := accounts
  have lengths := congrArg List.length joined
  rw [List.length_append, List.length_append, List.length_map, ← cut.length_eq] at lengths
  exact lengths

/-- A channel whose log accounts for what is in flight is a bounded queue. -/
theorem Models.boundedFifo {log : List Event} (models : Models width slots pair lines)
    (accounts : Accounts width {} (accepted side log) (delivered side log) (lines.line side)) :
    BoundedFifo width slots side log pair := by
  have length : inFlight side log = (lines.line side).queue.length := by
    have lengths := accounts.length_eq
    rw [List.length_nil, Nat.zero_add] at lengths
    unfold inFlight
    omega
  have there : side.other.other = side := side.other_other
  constructor
  · obtain ⟨whole, joined, cut⟩ := accounts
    exact ⟨whole, ⟨_, joined.symm⟩, cut⟩
  · rw [length, ← models.slots_eq side]
    exact (models.joined side).bounded
  · exact fun payload long => models.step_send_long side long
  · exact fun payload fits full => models.step_send_full side fits (length ▸ full)
  · intro payload fits space
    obtain ⟨after, sent, -⟩ := models.step_send_space side fits (length ▸ space)
    exact ⟨after, sent⟩
  · rw [models.step_canReceive, there, length]
    cases (lines.line side).queue with
    | nil => rfl
    | cons words rest => rfl
  · intro none limit
    apply models.step_receive_nil
    rw [there, ← List.length_eq_zero_iff, ← length, none]
  · intro positive limit
    cases queue : (lines.line side).queue with
    | nil =>
        rw [length, queue] at positive
        exact absurd positive (Nat.lt_irrefl 0)
    | cons words rest =>
        obtain ⟨after, received, -⟩ := models.step_receive_cons side.other (there ▸ queue) limit
        exact ⟨_, after, received⟩

/-- The sizes of an end over the halves of a view. -/
theorem sizes_of_overHalves {v : View} {slotBytes : Nat} {c : SlotChannel}
    (made : overHalves v slotBytes true = .ok c) :
    c.payloadWords = slotBytes / Word.size - 1 ∧ c.slots = v.bytes / 2 / slotBytes := by
  unfold overHalves at made
  cases split : v.splitAt (v.bytes / 2) with
  | none => simp [split] at made
  | some halves =>
      obtain ⟨low, high⟩ := halves
      have lowBytes : low.bytes = v.bytes / 2 := by
        simp only [View.splitAt, View.window, Option.bind_eq_bind, Option.pure_def] at split
        split at split
        · cases split
        rename_i aligned
        split at split
        · cases split
        simp only [Option.bind_some] at split
        split at split
        · obtain ⟨high', -, same⟩ := Option.bind_eq_some_iff.mp split
          cases same
          have whole : v.bytes / 2 % Word.size = 0 := by omega
          exact Nat.div_mul_cancel (Nat.dvd_of_mod_eq_zero whole)
        · cases split
      rw [split] at made
      unfold create at made
      simp only [if_true] at made
      repeat (split at made; · cases made)
      cases made
      exact ⟨rfl, by rw [lowBytes]⟩

/-- A new end is polled, and rings no bell. -/
theorem bells_of_overHalves {v : View} {slotBytes : Nat} {firstHalf : Bool} {c : SlotChannel}
    (made : overHalves v slotBytes firstHalf = .ok c) :
    c.localBell = none ∧ c.remoteBell = none := by
  unfold overHalves at made
  split at made
  · cases made
  · split at made
    · obtain ⟨slots, -, -, -, -, rfl⟩ := create_ok made
      exact ⟨rfl, rfl⟩
    · obtain ⟨slots, -, -, -, -, rfl⟩ := create_ok made
      exact ⟨rfl, rfl⟩

/-- The two ends over one new frame answer as two empty lines. -/
theorem models_start {m : Machine} {memory : Memory} {bytes slotBytes : Nat} {v : View}
    {a b : SlotChannel} (allocated : m.memory.allocate bytes = .ok (v, memory))
    (first : overHalves v slotBytes true = .ok a)
    (second : overHalves v slotBytes false = .ok b) :
    Models (slotBytes / Word.size - 1) (v.bytes / 2 / slotBytes)
      (Pair.start { m with memory } a b) ⟨fun _ => {}, m.bells⟩ := by
  have joined := joined_overHalves allocated first second
  obtain ⟨width_eq, slots_eq⟩ := sizes_of_overHalves first
  have bellsA := bells_of_overHalves first
  have bellsB := bells_of_overHalves second
  constructor
  · rintro (_ | _)
    · exact joined
    · exact joined.symm
  · rintro (_ | _)
    · exact width_eq
    · rw [← width_eq]
      exact congrArg (· - 1) joined.slotWords_eq.symm
  · rintro (_ | _)
    · exact slots_eq
    · rw [← slots_eq]
      exact joined.slots_eq.symm
  · rintro (_ | _)
    · exact bellsA.1
    · exact bellsB.1
  · rintro (_ | _)
    · exact bellsA.2
    · exact bellsB.2
  · rfl

/-- The two ends over one new frame, used in any order, are a bounded queue in each
direction, and the requests of one direction do not influence the other: without them
the same is answered, except for what an end is told about notifications by a bell that it
waits for and that the other direction names as well. -/
theorem run_bounded_fifo {m : Machine} {memory : Memory} {bytes slotBytes : Nat} {v : View}
    {a b : SlotChannel} (allocated : m.memory.allocate bytes = .ok (v, memory))
    (first : overHalves v slotBytes true = .ok a) (second : overHalves v slotBytes false = .ok b)
    (requests : List (Side × Request)) :
    let start := Pair.start { m with memory } a b
    ∃ log pair, start.run requests = .ok (log, pair) ∧ log.map Event.asked = requests ∧ ∀ side,
      BoundedFifo (slotBytes / Word.size - 1) (v.bytes / 2 / slotBytes) side log pair ∧
      ∃ alone after, start.run (requests.filter (belongs side)) = .ok (alone, after) ∧
        let here := log.filter fun e => belongs side e.asked
        AgreeBut (Names requests side.other) none here alone ∧
          (SeparateBells requests → here = alone) := by
  intro start
  have models : Models (slotBytes / Word.size - 1) (v.bytes / 2 / slotBytes) start
      ⟨fun _ => {}, m.bells⟩ := models_start allocated first second
  obtain ⟨pair, ran, models'⟩ := models.run requests
  have asked := Lines.run_asked (slotBytes / Word.size - 1) (v.bytes / 2 / slotBytes)
    ⟨fun _ => {}, m.bells⟩ requests
  have accounts := fun side => Lines.run_accounts (slotBytes / Word.size - 1)
    (v.bytes / 2 / slotBytes) ⟨fun _ => {}, m.bells⟩ side requests
  refine ⟨_, pair, ran, asked, fun side => ⟨models'.boundedFifo (accounts side), ?_⟩⟩
  obtain ⟨after, ranAlone, -⟩ := models.run (requests.filter (belongs side))
  have alike : Alike (Names requests side.other) side ⟨fun _ => {}, m.bells⟩
      ⟨fun _ => {}, m.bells⟩ := by
    refine ⟨rfl, ?_, fun _ _ => rfl⟩
    rintro bell (uses | uses)
    · cases uses
    · cases uses
  have agree := alike.run (slotBytes / Word.size - 1) (v.bytes / 2 / slotBytes) requests
    fun _ names => names
  refine ⟨_, after, ranAlone, agree, fun separate => agree.eq fun bell theirs => ⟨nofun, ?_⟩⟩
  intro e mem names
  obtain ⟨logged, kept⟩ := List.mem_filter.mp mem
  exact separate side bell ⟨e.asked, asked ▸ List.mem_map_of_mem logged, kept, names⟩ theirs

/-- A channel of one slot with one word in each direction: both ends send before
either receives. -/
theorem run_bounded_fifo_one_slot :
    ∃ v memory a b, Memory.allocate {} 32 = .ok (v, memory) ∧ overHalves v 16 true = .ok a ∧
      overHalves v 16 false = .ok b ∧
      ∃ log pair, (Pair.start { Machine.create 0 with memory } a b).run
          [(.first, .send [7]), (.second, .send [8]), (.first, .send [9]),
            (.second, .receive 1), (.first, .send [9]), (.first, .receive 3)] = .ok (log, pair) ∧
        ∀ side, BoundedFifo 1 1 side log pair := by
  have allocated : (Machine.create 0).memory.allocate 32 =
      .ok (⟨0, 0, 4⟩, ⟨#[Array.replicate 4 0]⟩) := rfl
  have first : overHalves ⟨0, 0, 4⟩ 16 true =
      .ok { sendPane := ⟨0, 0, 2⟩, recvPane := ⟨0, 2, 2⟩, slotWords := 2, slots := 1 } := by rfl
  have second : overHalves ⟨0, 0, 4⟩ 16 false =
      .ok { sendPane := ⟨0, 2, 2⟩, recvPane := ⟨0, 0, 2⟩, slotWords := 2, slots := 1 } := by rfl
  obtain ⟨log, pair, ran, -, fifo⟩ := run_bounded_fifo allocated first second _
  exact ⟨_, _, _, _, allocated, first, second, log, pair, ran, fun side => (fifo side).1⟩

/-- The first end waits for the bell that it rings for the second. -/
def sharing : List (Side × Request) :=
  [(.first, .notifyRemote ⟨0⟩), (.second, .notifyLocal ⟨0⟩), (.first, .notifyLocal ⟨0⟩),
    (.first, .send [7]), (.first, .takeNotification), (.second, .takeNotification)]

/-- A bell that both directions name tells one end only: what the first end asks about the
payloads for it takes away what the second end would be told about the payload that waits. -/
theorem shared_bell_tells_one : ∃ m : Machine, ∃ v memory a b,
    m.memory.allocate 32 = .ok (v, memory) ∧ overHalves v 16 true = .ok a ∧
      overHalves v 16 false = .ok b ∧
      ∃ log pair alone after,
        (Pair.start { m with memory } a b).run sharing = .ok (log, pair) ∧
        (Pair.start { m with memory } a b).run (sharing.filter (belongs .first)) =
          .ok (alone, after) ∧
        (log.filter fun e => belongs .first e.asked).getLast? =
          some ⟨.second, .takeNotification, .notified false⟩ ∧
        alone.getLast? = some ⟨.second, .takeNotification, .notified true⟩ :=
  ⟨{ Machine.create 0 with bells := (Bells.create {}).2 }, ⟨0, 0, 4⟩,
    ⟨#[Array.replicate 4 0]⟩,
    { sendPane := ⟨0, 0, 2⟩, recvPane := ⟨0, 2, 2⟩, slotWords := 2, slots := 1 },
    { sendPane := ⟨0, 2, 2⟩, recvPane := ⟨0, 0, 2⟩, slotWords := 2, slots := 1 },
    rfl, rfl, rfl, _, _, _, _, rfl, rfl, rfl, rfl⟩

end SlotChannel

end Conduit

/-
# One end of a channel stays in its slots

The other party of a channel over shared memory can write what it likes, where it likes and
when it likes: between two requests, and between the single reads and writes of one. Still an
end touches only the slot at its cursor, writes only what it means to publish or give back,
and panics never.

* `Request.accesses` — a request as the words that it touches, one after the other.
* `Step` — an end performs a request while others write, or others write.
* `stays_in_slots` — what every request touches and changes, after any steps.
-/

import Conduit.Proofs.Memory.Access
import Conduit.Proofs.Slots.Lines
import Conduit.Proofs.Slots.Panes
import Mathlib.Logic.Relation

namespace Conduit

namespace SlotChannel

/-! ### Requests word by word -/

/-- Performs a request. -/
def Request.perform (c : SlotChannel) (m : Machine) :
    Request → Except Panic (Reply × SlotChannel × Machine)
  | .send payload => do
      let (answer, c, m) ← c.send payload m
      return (.sent answer, c, m)
  | .receive limit => do
      let (words, c, m) ← c.receive limit m
      return (.received words, c, m)
  | .canReceive => do
      let is ← c.canReceive m
      return (.waiting is, c, m)
  | .takeNotification => do
      let (is, m) ← c.takeNotification m
      return (.notified is, c, m)
  | .notifyLocal bell =>
      match c.notifyLocal bell with
      | .error e => .ok (.switched (.error e), c, m)
      | .ok c => .ok (.switched (.ok ()), c, m)
  | .notifyRemote bell => .ok (.switched (.ok ()), c.notifyRemote bell, m)

/-- The words that a request touches, one after the other. -/
def Request.accesses (c : SlotChannel) (bells : Bells) : Request → Access (Reply × SlotChannel)
  | .send payload =>
      if payload.length > c.payloadWords then .done (.sent (.error .invalidSize), c)
      else .load c.sendPane (c.base c.sendIndex) fun flag =>
        if (SlotFlag.ofWord flag).isOpen then
          .storeAll c.sendPane (c.base c.sendIndex + 1) (pad c.payloadWords payload)
            (.store c.sendPane (c.base c.sendIndex) SlotFlag.sentWord
              (.done (.sent (.ok true), { c with sendIndex := (c.sendIndex + 1) % c.slots })))
        else .done (.sent (.ok false), c)
  | .receive limit =>
      .load c.recvPane (c.base c.recvIndex) fun flag =>
        if SlotFlag.ofWord flag = .sent then
          .loadAll c.recvPane (c.base c.recvIndex + 1) (min limit c.payloadWords) fun words =>
            .store c.recvPane (c.base c.recvIndex) SlotFlag.receivedWord
              (.done (.received (some words), { c with recvIndex := (c.recvIndex + 1) % c.slots }))
        else .done (.received none, c)
  | .canReceive =>
      .load c.recvPane (c.base c.recvIndex) fun flag =>
        .done (.waiting (SlotFlag.ofWord flag = .sent), c)
  | .takeNotification =>
      match c.localBell with
      | some bell => .done (.notified (bells.take bell).1, c)
      | none =>
          .load c.recvPane (c.base c.recvIndex) fun flag =>
            .done (.notified (SlotFlag.ofWord flag = .sent), c)
  | .notifyLocal bell =>
      match c.notifyLocal bell with
      | .error e => .done (.switched (.error e), c)
      | .ok c => .done (.switched (.ok ()), c)
  | .notifyRemote bell => .done (.switched (.ok ()), c.notifyRemote bell)

/-- A request touches memory as its accesses say. -/
theorem Request.perform_run (c : SlotChannel) (m : Machine) (request : Request) :
    (request.perform c m).map (fun r => ((r.1, r.2.1), r.2.2.memory)) =
      (request.accesses c m.bells).run m.memory := by
  cases request with
  | send payload =>
      simp only [perform, accesses, SlotChannel.send]
      split
      · rfl
      · simp only [Access.run]
        cases m.memory.load c.sendPane (c.base c.sendIndex) with
        | error e => rfl
        | ok flag =>
            simp only [bind, Except.bind]
            by_cases isOpen : (SlotFlag.ofWord flag).isOpen = true
            · simp only [if_pos isOpen, Access.run_storeAll]
              cases m.memory.storeAll c.sendPane (c.base c.sendIndex + 1)
                  (pad c.payloadWords payload) with
              | error e => rfl
              | ok memory =>
                  simp only [bind, Except.bind, Access.run]
                  cases memory.store c.sendPane (c.base c.sendIndex) SlotFlag.sentWord <;> rfl
            · simp only [if_neg isOpen]
              rfl
  | receive limit =>
      simp only [perform, accesses, SlotChannel.receive, Access.run]
      cases m.memory.load c.recvPane (c.base c.recvIndex) with
      | error e => rfl
      | ok flag =>
          simp only [bind, Except.bind]
          by_cases sent : SlotFlag.ofWord flag = .sent
          · simp only [if_pos sent, Access.run_loadAll]
            cases m.memory.loadAll c.recvPane (c.base c.recvIndex + 1)
                (min limit c.payloadWords) with
            | error e => rfl
            | ok words =>
                simp only [bind, Except.bind, Access.run]
                cases m.memory.store c.recvPane (c.base c.recvIndex) SlotFlag.receivedWord <;> rfl
          · simp only [if_neg sent]
            rfl
  | canReceive =>
      simp only [perform, accesses, SlotChannel.canReceive, Access.run]
      cases m.memory.load c.recvPane (c.base c.recvIndex) <;> rfl
  | takeNotification =>
      simp only [perform, accesses, SlotChannel.takeNotification]
      cases c.localBell with
      | some bell => rfl
      | none =>
          simp only [SlotChannel.canReceive, Access.run]
          cases m.memory.load c.recvPane (c.base c.recvIndex) <;> rfl
  | notifyLocal bell =>
      simp only [perform, accesses]
      cases c.notifyLocal bell <;> rfl
  | notifyRemote bell => rfl

/-! ### Steps amid the writes of others -/

/-- Made over panes of frames that lie in memory, or over the halves of one. Panes may be
windows into their frames, and may overlap. -/
inductive Made (m : Memory) (c : SlotChannel) : Prop where
  | panes {slotBytes : Nat} {sendFrame recvFrame sendPane recvPane : View}
      (sends : m.Holds sendFrame) (receives : m.Holds recvFrame)
      (sendCut : sendFrame.Cut sendPane) (recvCut : recvFrame.Cut recvPane)
      (created : create slotBytes sendPane recvPane = .ok c)
  | halves {slotBytes : Nat} {firstHalf : Bool} {frame v : View} (held : m.Holds frame)
      (cut : frame.Cut v) (created : overHalves v slotBytes firstHalf = .ok c)

/-- Either way it was made over two panes that lie in memory. -/
theorem Made.overPanes {c : SlotChannel} {m : Memory} (made : Made m c) :
    ∃ slotBytes sendPane recvPane, m.Holds sendPane ∧ m.Holds recvPane ∧
      create slotBytes sendPane recvPane = .ok c := by
  cases made with
  | panes sends receives sendCut recvCut created =>
      exact ⟨_, _, _, sends.cut sendCut, receives.cut recvCut, created⟩
  | @halves slotBytes firstHalf frame v held cut created =>
      unfold overHalves at created
      cases split : v.splitAt (v.bytes / 2) with
      | none =>
          rw [split] at created
          cases created
      | some halves =>
          obtain ⟨lowCut, highCut⟩ := cut.splitAt split
          simp only [split] at created
          cases firstHalf with
          | true => exact ⟨_, _, _, held.cut lowCut, held.cut highCut, created⟩
          | false => exact ⟨_, _, _, held.cut highCut, held.cut lowCut, created⟩

theorem Made.fitted {c : SlotChannel} {m : Memory} (made : Made m c) : c.Fitted m := by
  obtain ⟨slotBytes, sendPane, recvPane, sends, receives, created⟩ := made.overPanes
  exact .create created sends receives

/-- An end and the memory it works on. -/
structure Site where
  channel : SlotChannel
  memory : Memory

/-- The end performs a request while others write between its touches, or others write. The
bells that the request finds may be any. -/
inductive Step : Site → Site → Prop where
  | request {c c' : SlotChannel} {m m' : Memory} {bells : Bells} {request : Request}
      {touches : List Touch} {reply : Reply}
      (amid : (request.accesses c bells).Amid m touches (.ok (reply, c')) m') :
      Step ⟨c, m⟩ ⟨c', m'⟩
  | others {c : SlotChannel} {m m' : Memory} (grows : m.Grows m') : Step ⟨c, m⟩ ⟨c, m'⟩

/-- A request that is performed undisturbed is a step. -/
theorem Request.perform_step {c c' : SlotChannel} {m m' : Machine} {request : Request}
    {reply : Reply} (performed : request.perform c m = .ok (reply, c', m')) :
    Step ⟨c, m.memory⟩ ⟨c', m'.memory⟩ := by
  have runs := request.perform_run c m
  rw [performed] at runs
  obtain ⟨touches, amid⟩ := Access.amid_of_run runs.symm
  exact .request amid

/-! ### What a request may touch -/

/-- A slot of a pane, of which a word is touched. -/
def Within (c : SlotChannel) (pane : View) (slot : Nat) (t : Touch) : Prop :=
  t.view = pane ∧ c.base slot ≤ t.index ∧ t.index < c.base slot + c.slotWords

/-- What a request writes, by its reply. -/
def Request.writes (c : SlotChannel) : Request → Reply → List Touch
  | .send payload, .sent (.ok true) =>
      (pad c.payloadWords payload).mapIdx
          (fun i word => .write c.sendPane (c.base c.sendIndex + 1 + i) word) ++
        [.write c.sendPane (c.base c.sendIndex) SlotFlag.sentWord]
  | .receive _, .received (some _) =>
      [.write c.recvPane (c.base c.recvIndex) SlotFlag.receivedWord]
  | _, _ => []

/-- Two ends with the same panes, divided into the same slots. -/
structure SamePanes (c c' : SlotChannel) : Prop where
  sendPane : c'.sendPane = c.sendPane
  recvPane : c'.recvPane = c.recvPane
  slotWords : c'.slotWords = c.slotWords
  slots : c'.slots = c.slots

theorem SamePanes.refl (c : SlotChannel) : SamePanes c c := ⟨rfl, rfl, rfl, rfl⟩

theorem SamePanes.trans {c c' c'' : SlotChannel} (first : SamePanes c c')
    (later : SamePanes c' c'') : SamePanes c c'' :=
  ⟨later.sendPane.trans first.sendPane, later.recvPane.trans first.recvPane,
    later.slotWords.trans first.slotWords, later.slots.trans first.slots⟩

/-- The end after a request, by its reply: the panes and slots stay, and a cursor moves
exactly if a message was sent or received. -/
structure Follows (c : SlotChannel) (reply : Reply) (c' : SlotChannel) : Prop
    extends SamePanes c c' where
  sendIndex : c'.sendIndex = match reply with
    | .sent (.ok true) => (c.sendIndex + 1) % c.slots
    | _ => c.sendIndex
  recvIndex : c'.recvIndex = match reply with
    | .received (some _) => (c.recvIndex + 1) % c.slots
    | _ => c.recvIndex

/-- A request touches words of the slots at the cursors only, each of them inside its pane,
and writes what its reply says and nothing else. -/
structure Confined (c : SlotChannel) (request : Request) (touches : List Touch) (reply : Reply)
    (c' : SlotChannel) : Prop where
  inPane : ∀ t ∈ touches, t.index < t.view.words
  inSlot : ∀ t ∈ touches, c.Within c.sendPane c.sendIndex t ∨ c.Within c.recvPane c.recvIndex t
  writes : touches.filter Touch.isWrite = request.writes c reply
  follows : c.Follows reply c'

variable {c c' : SlotChannel} {m : Memory}

/-- The words of a slot are words of its pane. -/
theorem slot_inPane {l : Lane} (laid : l.Laid m) {k : Nat} (hk : k < l.slots) {i : Nat}
    (hi : i < k * l.slotWords + l.slotWords) : i < l.pane.words := by
  have rows : (k + 1) * l.slotWords ≤ l.slots * l.slotWords := Nat.mul_le_mul_right _ hk
  rw [Nat.succ_mul] at rows
  rw [laid.whole]
  omega

/-- A touch of the slot at a cursor is inside the pane. -/
theorem Fitted.inPane (fitted : c.Fitted m) {t : Touch}
    (inSlot : c.Within c.sendPane c.sendIndex t ∨ c.Within c.recvPane c.recvIndex t) :
    t.index < t.view.words := by
  rcases inSlot with ⟨view, -, before⟩ | ⟨view, -, before⟩
  · rw [view]
    exact slot_inPane fitted.sends fitted.sendIndex before
  · rw [view]
    exact slot_inPane fitted.receives fitted.recvIndex before

/-- Whatever a request reads, it reads and writes inside the panes. -/
theorem Fitted.inside (fitted : c.Fitted m) (bells : Bells) (request : Request) :
    (request.accesses c bells).Inside m := by
  have room : 2 ≤ c.slotWords := fitted.sends.room
  have sends : ∀ i, i < c.base c.sendIndex + c.slotWords → i < c.sendPane.words := fun i hi =>
    slot_inPane fitted.sends fitted.sendIndex hi
  have receives : ∀ i, i < c.base c.recvIndex + c.slotWords → i < c.recvPane.words := fun i hi =>
    slot_inPane fitted.receives fitted.recvIndex hi
  have polls : ∀ answer : UInt64 → Reply × SlotChannel,
      (Access.load c.recvPane (c.base c.recvIndex) fun flag => .done (answer flag)).Inside m :=
    fun _ => ⟨⟨fitted.receives.held, receives _ (by omega)⟩, fun _ => trivial⟩
  cases request with
  | send payload =>
      have last := sends (c.base c.sendIndex + c.payloadWords) (by unfold payloadWords; omega)
      simp only [Request.accesses]
      split
      · trivial
      · refine ⟨⟨fitted.sends.held, sends _ (by omega)⟩, fun flag => ?_⟩
        beta_reduce
        split
        · refine Access.Inside.storeAll ?_ fitted.sends.held ?_
          · exact ⟨⟨fitted.sends.held, sends _ (by omega)⟩, trivial⟩
          · change c.base c.sendIndex + 1 + (pad c.payloadWords payload).length ≤ c.sendPane.words
            rw [length_pad]
            omega
        · trivial
  | receive limit =>
      have last := receives (c.base c.recvIndex + c.payloadWords) (by unfold payloadWords; omega)
      refine ⟨⟨fitted.receives.held, receives _ (by omega)⟩, fun flag => ?_⟩
      beta_reduce
      split
      · have fits : c.base c.recvIndex + 1 + min limit c.payloadWords ≤ c.recvPane.words := by omega
        refine Access.Inside.loadAll (fun words => ?_) fitted.receives.held fits
        exact ⟨⟨fitted.receives.held, receives _ (by omega)⟩, trivial⟩
      · trivial
  | canReceive => exact polls _
  | takeNotification =>
      simp only [Request.accesses]
      split
      · trivial
      · exact polls _
  | notifyLocal bell =>
      simp only [Request.accesses]
      split <;> trivial
  | notifyRemote bell => trivial

/-- A request that does not move a cursor leaves the panes and slots as well. -/
theorem Follows.refl (c : SlotChannel) {reply : Reply} (unsent : reply ≠ .sent (.ok true))
    (unread : ∀ words, reply ≠ .received (some words)) : c.Follows reply c where
  toSamePanes := .refl c
  sendIndex := by
    split
    · exact absurd rfl unsent
    · rfl
  recvIndex := by
    split
    · exact absurd rfl (unread _)
    · rfl

/-- A request that reads one flag at most, and stops there. -/
theorem Fitted.confined_reading (fitted : c.Fitted m) {request : Request} {touches : List Touch}
    {reply : Reply} (flags : ∀ t ∈ touches, t.isWrite = false ∧
      (c.Within c.sendPane c.sendIndex t ∨ c.Within c.recvPane c.recvIndex t))
    (writes : request.writes c reply = []) (follows : c.Follows reply c') :
    Confined c request touches reply c' where
  inPane := fun t mem => fitted.inPane (flags t mem).2
  inSlot := fun t mem => (flags t mem).2
  writes := by
    rw [writes, List.filter_eq_nil_iff]
    intro t mem
    rw [(flags t mem).1]
    exact Bool.false_ne_true
  follows := follows

/-- The words of a slot. -/
theorem within_slot {pane : View} {slot i : Nat} {t : Touch} (view : t.view = pane)
    (index : t.index = c.base slot + i) (hi : i < c.slotWords) : c.Within pane slot t :=
  ⟨view, index ▸ Nat.le_add_right _ _, index ▸ Nat.add_lt_add_left hi _⟩

/-- A flag, words behind it, and the flag again are words of a slot that has room for them. -/
theorem within_run {pane : View} {slot : Nat} {first last : Touch} {touch : Nat → UInt64 → Touch}
    {words : List UInt64} (room : words.length < c.slotWords)
    (begins : first.view = pane ∧ first.index = c.base slot)
    (ends : last.view = pane ∧ last.index = c.base slot)
    (between : ∀ i word, (touch i word).view = pane ∧
      (touch i word).index = c.base slot + 1 + i) :
    ∀ t ∈ first :: (words.mapIdx touch ++ [last]), c.Within pane slot t := by
  intro t mem
  rw [List.mem_cons, List.mem_append, List.mem_mapIdx, List.mem_singleton] at mem
  rcases mem with rfl | ⟨i, hi, rfl⟩ | rfl
  · exact within_slot begins.1 (begins.2.trans (Nat.add_zero _).symm) (by omega)
  · obtain ⟨view, index⟩ := between i words[i]
    exact within_slot view (index.trans (Nat.add_assoc _ 1 i)) (by omega)
  · exact within_slot ends.1 (ends.2.trans (Nat.add_zero _).symm) (by omega)

theorem Fitted.some_word (fitted : c.Fitted m) : 0 < c.slotWords :=
  Nat.lt_of_lt_of_le Nat.two_pos fitted.sends.room

/-- A request that looks at the flag of the slot to read, and answers. -/
theorem Fitted.confined_polling (fitted : c.Fitted m) {request : Request} {touches : List Touch}
    {reply : Reply} {answer : UInt64 → Reply}
    (path : (Access.load c.recvPane (c.base c.recvIndex) fun flag => .done (answer flag, c)).Path
      touches (reply, c'))
    (unsent : ∀ flag, answer flag ≠ .sent (.ok true))
    (unread : ∀ flag words, answer flag ≠ .received (some words))
    (writes : ∀ flag, request.writes c (answer flag) = []) :
    Confined c request touches reply c' := by
  cases path with
  | load path =>
      cases path
      refine fitted.confined_reading ?_ (writes _) (.refl c (unsent _) (unread _))
      intro t mem
      rw [List.mem_singleton] at mem
      subst mem
      exact ⟨rfl, .inr (within_slot rfl rfl fitted.some_word)⟩

theorem Fitted.confined_send (fitted : c.Fitted m) {payload : List UInt64} {bells : Bells}
    {touches : List Touch} {reply : Reply}
    (path : ((Request.send payload).accesses c bells).Path touches (reply, c')) :
    Confined c (.send payload) touches reply c' := by
  simp only [Request.accesses] at path
  split at path
  · cases path
    exact fitted.confined_reading (by simp) rfl (.refl c (by simp) (by simp))
  cases path with
  | load path =>
      rename_i flag later
      beta_reduce at path
      split at path
      · obtain ⟨last, ends, rfl⟩ := Access.path_storeAll path
        cases ends with
        | store ends =>
            cases ends
            have room : (pad c.payloadWords payload).length < c.slotWords := by
              rw [length_pad, payloadWords]
              exact Nat.sub_lt fitted.some_word Nat.one_pos
            have inSlot : ∀ t ∈ Touch.read c.sendPane (c.base c.sendIndex) flag ::
                ((pad c.payloadWords payload).mapIdx
                  (fun i word => Touch.write c.sendPane (c.base c.sendIndex + 1 + i) word) ++
                [.write c.sendPane (c.base c.sendIndex) SlotFlag.sentWord]),
                c.Within c.sendPane c.sendIndex t :=
              within_run room ⟨rfl, rfl⟩ ⟨rfl, rfl⟩ fun _ _ => ⟨rfl, rfl⟩
            refine ⟨fun t mem => fitted.inPane (.inl (inSlot t mem)), fun t mem => .inl (inSlot t mem),
              ?_, ⟨⟨rfl, rfl, rfl, rfl⟩, rfl, rfl⟩⟩
            have written : ∀ t ∈ (pad c.payloadWords payload).mapIdx
                (fun i word => Touch.write c.sendPane (c.base c.sendIndex + 1 + i) word),
                t.isWrite = true := by
              intro t mem
              obtain ⟨i, hi, rfl⟩ := List.mem_mapIdx.mp mem
              rfl
            rw [List.filter_cons_of_neg Bool.false_ne_true, List.filter_append,
              List.filter_eq_self.mpr written]
            rfl
      · cases path
        refine fitted.confined_reading ?_ rfl (.refl c (by simp) (by simp))
        intro t mem
        rw [List.mem_singleton] at mem
        subst mem
        exact ⟨rfl, .inl (within_slot rfl rfl fitted.some_word)⟩

theorem Fitted.confined_receive (fitted : c.Fitted m) {limit : Nat} {bells : Bells}
    {touches : List Touch} {reply : Reply}
    (path : ((Request.receive limit).accesses c bells).Path touches (reply, c')) :
    Confined c (.receive limit) touches reply c' := by
  cases path with
  | load path =>
      rename_i flag later
      beta_reduce at path
      split at path
      · obtain ⟨words, last, length, ends, rfl⟩ := Access.path_loadAll path
        cases ends with
        | store ends =>
            cases ends
            have room : words.length < c.slotWords := by
              rw [length, payloadWords]
              have some := fitted.some_word
              omega
            have inSlot : ∀ t ∈ Touch.read c.recvPane (c.base c.recvIndex) flag :: (words.mapIdx
                  (fun i word => Touch.read c.recvPane (c.base c.recvIndex + 1 + i) word) ++
                [.write c.recvPane (c.base c.recvIndex) SlotFlag.receivedWord]),
                c.Within c.recvPane c.recvIndex t :=
              within_run room ⟨rfl, rfl⟩ ⟨rfl, rfl⟩ fun _ _ => ⟨rfl, rfl⟩
            refine ⟨fun t mem => fitted.inPane (.inr (inSlot t mem)), fun t mem => .inr (inSlot t mem),
              ?_, ⟨⟨rfl, rfl, rfl, rfl⟩, rfl, rfl⟩⟩
            have reading : ∀ t ∈ words.mapIdx
                (fun i word => Touch.read c.recvPane (c.base c.recvIndex + 1 + i) word),
                ¬ t.isWrite = true := by
              intro t mem
              obtain ⟨i, hi, rfl⟩ := List.mem_mapIdx.mp mem
              exact Bool.false_ne_true
            rw [List.filter_cons_of_neg Bool.false_ne_true, List.filter_append,
              List.filter_eq_nil_iff.mpr reading]
            rfl
      · cases path
        refine fitted.confined_reading ?_ rfl (.refl c (by simp) (by simp))
        intro t mem
        rw [List.mem_singleton] at mem
        subst mem
        exact ⟨rfl, .inr (within_slot rfl rfl fitted.some_word)⟩

/-- Whatever a request reads, it stays in the slots at the cursors. -/
theorem Fitted.confined (fitted : c.Fitted m) {request : Request} {bells : Bells}
    {touches : List Touch} {reply : Reply}
    (path : (request.accesses c bells).Path touches (reply, c')) :
    Confined c request touches reply c' := by
  cases request with
  | send payload => exact fitted.confined_send path
  | receive limit => exact fitted.confined_receive path
  | canReceive => exact fitted.confined_polling path (by simp) (by simp) fun _ => rfl
  | takeNotification =>
      simp only [Request.accesses] at path
      split at path
      · cases path
        exact fitted.confined_reading (by simp) rfl (.refl c (by simp) (by simp))
      · exact fitted.confined_polling path (by simp) (by simp) fun _ => rfl
  | notifyLocal bell =>
      simp only [Request.accesses, notifyLocal] at path
      cases held : c.localBell with
      | none =>
          rw [held] at path
          cases path
          exact fitted.confined_reading (by simp) rfl ⟨⟨rfl, rfl, rfl, rfl⟩, rfl, rfl⟩
      | some _ =>
          rw [held] at path
          cases path
          exact fitted.confined_reading (by simp) rfl ⟨⟨rfl, rfl, rfl, rfl⟩, rfl, rfl⟩
  | notifyRemote bell =>
      cases path
      exact fitted.confined_reading (by simp) rfl ⟨⟨rfl, rfl, rfl, rfl⟩, rfl, rfl⟩

/-! ### What a request changes when nobody disturbs it -/

/-- The memory after an undisturbed request, by its reply: a message that was sent fills the
slot at the cursor, one that was received frees its slot, and else nothing changes. -/
def Request.Changes (c : SlotChannel) (m m' : Memory) : Request → Reply → Prop
  | .send payload, .sent (.ok true) =>
      m.OnlyWithin m' c.sendPane (c.base c.sendIndex) c.slotWords ∧
        SlotFlag.ofWord (m'.word c.sendPane (c.base c.sendIndex)) = .sent ∧
        ∀ i < c.payloadWords,
          m'.word c.sendPane (c.base c.sendIndex + 1 + i) = payload.getD i 0
  | .receive _, .received (some _) =>
      m.OnlyWithin m' c.recvPane (c.base c.recvIndex) 1 ∧
        SlotFlag.ofWord (m'.word c.recvPane (c.base c.recvIndex)) = .received
  | _, _ => m' = m

theorem getD_pad {width i : Nat} (payload : List UInt64) (hi : i < width) :
    (pad width payload).getD i 0 = payload.getD i 0 := by
  unfold pad
  rw [List.getD_eq_getElem?_getD, List.getElem?_take_of_lt hi, List.getD_eq_getElem?_getD]
  by_cases given : i < payload.length
  · rw [List.getElem?_append_left given]
  · rw [List.getElem?_append_right (by omega), List.getElem?_replicate,
      List.getElem?_eq_none (Nat.le_of_not_lt given)]
    split <;> rfl

/-- A message that was sent lies in the slot at the cursor, padded with zeros. -/
theorem Fitted.changes_send {m : Machine} (fitted : c.Fitted m.memory) (payload : List UInt64) :
    (Request.send payload).Changes c m.memory (c.afterSend payload m).2.memory (.sent (.ok true)) := by
  have laid := fitted.sends
  have room : 2 ≤ c.slotWords := laid.room
  have width : (pad c.payloadWords payload).length = c.outgoing.slotWords - 1 := length_pad _ _
  have last : c.base c.sendIndex + c.payloadWords < c.sendPane.words :=
    slot_inPane laid fitted.sendIndex (by
      change _ < c.base c.sendIndex + c.slotWords
      unfold payloadWords
      omega)
  have fits : c.base c.sendIndex + 1 + (pad c.payloadWords payload).length ≤ c.sendPane.words := by
    rw [length_pad]
    omega
  have word : ∀ j < c.slotWords,
      (c.outgoing.fill m.memory c.sendIndex (pad c.payloadWords payload)).word c.sendPane
        (c.base c.sendIndex + j) =
      if j = 0 then SlotFlag.sentWord else (pad c.payloadWords payload).getD (j - 1) 0 :=
    fun j hj => by
      have filled : (c.outgoing.fill m.memory c.sendIndex (pad c.payloadWords payload)).word
          c.sendPane (c.outgoing.place c.sendIndex j) = _ :=
        Lane.word_fill laid fitted.sendIndex width hj
      rw [if_neg (fun other => other rfl)] at filled
      exact filled
  refine ⟨?_, ?_, fun i hi => ?_⟩
  · have flagged : c.base c.sendIndex < c.sendPane.words := by omega
    refine (Memory.OnlyWithin.putAll laid.held fits).trans
      (.put (laid.held.putAll _ _ _) flagged SlotFlag.sentWord) ?_ ?_
    · rw [length_pad, payloadWords]
      omega
    · omega
  · have flag := word 0 (by omega)
    rw [if_pos rfl, Nat.add_zero] at flag
    change SlotFlag.ofWord ((c.outgoing.fill _ _ _).word _ _) = _
    rw [flag]
    rfl
  · have filled := word (1 + i) (by unfold payloadWords at hi; omega)
    rw [if_neg (by omega), Nat.add_sub_cancel_left, getD_pad payload hi, ← Nat.add_assoc] at filled
    exact filled

/-- The slot of a message that was received is given back. -/
theorem Fitted.changes_receive {m : Machine} (fitted : c.Fitted m.memory) (limit : Nat)
    (words : List UInt64) : (Request.receive limit).Changes c m.memory (c.afterReceive m).2.memory
      (.received (some words)) := by
  have laid := fitted.receives
  have room : 2 ≤ c.slotWords := laid.room
  have flagged : c.base c.recvIndex < c.recvPane.words :=
    slot_inPane laid fitted.recvIndex (by
      change _ < c.base c.recvIndex + c.slotWords
      omega)
  refine ⟨.put laid.held flagged SlotFlag.receivedWord, ?_⟩
  change SlotFlag.ofWord ((m.memory.put c.recvPane (c.base c.recvIndex) _).word _ _) = _
  have read : (m.memory.put c.recvPane (c.base c.recvIndex) SlotFlag.receivedWord).word c.recvPane
      (c.base c.recvIndex) = SlotFlag.receivedWord := by
    rw [Memory.word_put (show m.memory.Holds c.recvPane from laid.held) flagged, if_pos ⟨rfl, rfl⟩]
  rw [read]
  rfl

/-- A request is answered, and changes what its reply says. -/
theorem Fitted.performs {m : Machine} (fitted : c.Fitted m.memory) (request : Request) :
    ∃ reply c' m', request.perform c m = .ok (reply, c', m') ∧
      request.Changes c m.memory m'.memory reply := by
  cases request with
  | send payload =>
      rcases fitted.send payload with ⟨answer, refused, sends⟩ | sends
      · refine ⟨.sent answer, c, m, by simp only [Request.perform, sends]; rfl, ?_⟩
        rcases answer with e | _ | _
        · rfl
        · rfl
        · exact absurd rfl refused
      · exact ⟨.sent (.ok true), _, _, by simp only [Request.perform, sends]; rfl,
          fitted.changes_send payload⟩
  | receive limit =>
      rcases fitted.receive limit with receives | ⟨words, receives⟩
      · exact ⟨.received none, c, m, by simp only [Request.perform, receives]; rfl, rfl⟩
      · exact ⟨.received (some words), _, _, by simp only [Request.perform, receives]; rfl,
          fitted.changes_receive limit words⟩
  | canReceive =>
      obtain ⟨ready, polls⟩ := fitted.canReceive
      exact ⟨.waiting ready, c, m, by simp only [Request.perform, polls]; rfl, rfl⟩
  | takeNotification =>
      obtain ⟨rung, bells, takes⟩ := fitted.takeNotification
      exact ⟨.notified rung, c, { m with bells }, by simp only [Request.perform, takes]; rfl, rfl⟩
  | notifyLocal bell =>
      simp only [Request.perform]
      cases c.notifyLocal bell with
      | error e => exact ⟨_, _, _, rfl, rfl⟩
      | ok c' => exact ⟨_, _, _, rfl, rfl⟩
  | notifyRemote bell => exact ⟨_, _, _, rfl, rfl⟩

/-! ### Whatever happens -/

theorem Fitted.follows (fitted : c.Fitted m) {reply : Reply} (follows : c.Follows reply c') :
    c'.Fitted m := by
  have outgoing : c'.outgoing = c.outgoing := by
    unfold SlotChannel.outgoing
    rw [follows.sendPane, follows.slotWords, follows.slots]
  have incoming : c'.incoming = c.incoming := by
    unfold SlotChannel.incoming
    rw [follows.recvPane, follows.slotWords, follows.slots]
  refine ⟨outgoing ▸ fitted.sends, incoming ▸ fitted.receives, ?_, ?_⟩
  · rw [follows.sendIndex, follows.slots]
    split
    · exact Nat.mod_lt _ fitted.sends.pos
    · exact fitted.sendIndex
  · rw [follows.recvIndex, follows.slots]
    split
    · exact Nat.mod_lt _ fitted.sends.pos
    · exact fitted.recvIndex

theorem Fitted.step {s s' : Site} (fitted : s.channel.Fitted s.memory) (step : Step s s') :
    s'.channel.Fitted s'.memory := by
  cases step with
  | request amid =>
      obtain ⟨grows, answer, returns, path⟩ := amid.returns (fitted.inside _ _)
      injection returns with returns
      subst returns
      exact (fitted.follows (fitted.confined path).follows).grows grows
  | others grows => exact fitted.grows grows

theorem Fitted.steps {s s' : Site} (fitted : s.channel.Fitted s.memory)
    (steps : Relation.ReflTransGen Step s s') :
    s'.channel.Fitted s'.memory ∧ SamePanes s.channel s'.channel := by
  induction steps with
  | refl => exact ⟨fitted, .refl _⟩
  | tail _ step ih =>
      obtain ⟨now, same⟩ := ih
      refine ⟨now.step step, ?_⟩
      cases step with
      | request amid =>
          obtain ⟨-, answer, returns, path⟩ := amid.returns (now.inside _ _)
          injection returns with returns
          subst returns
          exact same.trans (now.confined path).follows.toSamePanes
      | others _ => exact same

/-- Whatever an end was asked and whatever others wrote meanwhile, its panes and slots are
those it was made with and its cursors are slots. A request that is performed while others go
on writing returns, touches words of the slots at the cursors only, and writes nothing but the
slot it publishes or the flag it gives back. Performed undisturbed, it returns and changes
memory by just that: refused or in vain, it changes nothing. -/
theorem stays_in_slots {c : SlotChannel} {m : Memory} {s : Site} (made : Made m c)
    (steps : Relation.ReflTransGen Step ⟨c, m⟩ s) :
    SamePanes c s.channel ∧ s.channel.sendIndex < s.channel.slots ∧
      s.channel.recvIndex < s.channel.slots ∧
      (∀ (request : Request) bells touches result m',
        (request.accesses s.channel bells).Amid s.memory touches result m' →
          ∃ reply c', result = .ok (reply, c') ∧ Confined s.channel request touches reply c') ∧
      (∀ (request : Request) (machine : Machine), machine.memory = s.memory →
        ∃ reply c' machine', request.perform s.channel machine = .ok (reply, c', machine') ∧
          Step s ⟨c', machine'.memory⟩ ∧
          request.Changes s.channel s.memory machine'.memory reply) := by
  obtain ⟨fitted, same⟩ := Fitted.steps (s := ⟨c, m⟩) made.fitted steps
  refine ⟨same, fitted.sendIndex, fitted.recvIndex, ?_, ?_⟩
  · intro request bells touches result m' amid
    obtain ⟨-, answer, returns, path⟩ := amid.returns (fitted.inside bells request)
    exact ⟨answer.1, answer.2, returns, fitted.confined path⟩
  · intro request machine here
    rw [← here] at fitted
    obtain ⟨reply, c', machine', performs, changes⟩ := fitted.performs request
    have step := request.perform_step performs
    rw [here] at step changes
    exact ⟨reply, c', machine', performs, step, changes⟩

/-- A zeroed frame of eight words. -/
def blank : Memory := { blocks := #[#[0, 0, 0, 0, 0, 0, 0, 0]] }

/-- An end over the halves of the frame, with two slots in each. -/
def lower : SlotChannel :=
  { sendPane := ⟨0, 0, 4⟩, recvPane := ⟨0, 4, 4⟩, slotWords := 2, slots := 2 }

/-- Somebody forges a flag, the end reads that slot while its payload is replaced, and then
has a slot before it whose flag nobody knows. -/
theorem stays_in_slots_forged : ∃ s : Site, Made blank lower ∧
    Relation.ReflTransGen Step ⟨lower, blank⟩ s ∧ s.channel.recvIndex = 1 ∧
    s.memory.word ⟨0, 4, 4⟩ 2 = 0x703 ∧ s.channel.recvIndex < s.channel.slots ∧
    ∀ machine : Machine, machine.memory = s.memory →
      ∃ reply c' machine', (Request.receive 1).perform s.channel machine =
        .ok (reply, c', machine') ∧
        (Request.receive 1).Changes s.channel s.memory machine'.memory reply := by
  have held : blank.Holds ⟨0, 0, 8⟩ := by
    unfold Memory.Holds
    decide
  have created : overHalves ⟨0, 0, 8⟩ 16 true = .ok lower := by decide
  have made : Made blank lower := .halves held .whole created
  let forged := (blank.put ⟨0, 0, 8⟩ 4 0x101).put ⟨0, 0, 8⟩ 6 0x703
  have forging : Step ⟨lower, blank⟩ ⟨lower, forged⟩ :=
    .others ((Memory.grows_put _ _ _ _).trans (Memory.grows_put _ _ _ _))
  have amid : ((Request.receive 1).accesses lower {}).Amid forged
      [.read ⟨0, 4, 4⟩ 0 0x101, .read ⟨0, 4, 4⟩ 1 9, .write ⟨0, 4, 4⟩ 0 2]
      (.ok (.received (some [9]), { lower with recvIndex := 1 }))
      ((forged.put ⟨0, 0, 8⟩ 5 9).put ⟨0, 4, 4⟩ 0 2) :=
    .load rfl (.others (Memory.grows_put _ ⟨0, 0, 8⟩ 5 9) (.load rfl (.store rfl .done)))
  have steps := Relation.ReflTransGen.head forging (.single (.request amid))
  obtain ⟨-, -, recvIndex, -, performs⟩ := stays_in_slots made steps
  refine ⟨_, made, steps, rfl, rfl, recvIndex, fun machine here => ?_⟩
  obtain ⟨reply, c', machine', performed, -, changes⟩ := performs (.receive 1) machine here
  exact ⟨reply, c', machine', performed, changes⟩

end SlotChannel

end Conduit

/-
# Names that are given once

Endpoints and frames are named by slots, and all slots come from one counter. After any requests
the slots that were handed out are the numbers below the counter, in order (`Registered.slots`),
so whatever is created gets a name that nothing else ever had: no endpoint and no frame is
replaced, and each frame is a block of memory of its own. Whoever asks while enough slots are left
gets them (`Machine.serve_granted`), and whoever asks when none is left is refused
(`Machine.serve_exhausted`).
-/

import Conduit.Proofs.Kernel.Requests
import Conduit.Proofs.Memory.Words

namespace Conduit

/-- The capability of the slot with this number. -/
def Cap.nth (n : Nat) : Cap := ⟨UInt32.ofNat n⟩

theorem Cap.toNat_nth {n : Nat} (small : n < 0x100000000) : (nth n).slot.toNat = n :=
  UInt32.toNat_ofNat_of_lt small

theorem Cap.nth_toNat (cap : Cap) : nth cap.slot.toNat = cap := congrArg Cap.mk UInt32.ofNat_toNat

namespace Kernel

namespace Event

/-- The capabilities that the answer names as new. -/
def names : Event → List Cap
  | ⟨_, .ok (.endpoint ep), _⟩ => [ep.home]
  | ⟨_, .ok (.channel a b), _⟩ => [a.home, b.home]
  | ⟨_, .ok (.slot cap), _⟩ => [cap]
  | ⟨_, .ok (.frame cap), _⟩ => [cap]
  | _ => []

/-- The endpoints that were created, also the first of two if there was no slot for the second. -/
def endpoints : Event → List Cap
  | ⟨.endpoint, _, slots⟩ => slots
  | ⟨.channel, _, slots⟩ => slots
  | _ => []

/-- The frame that was allocated. -/
def frames : Event → List Cap
  | ⟨.frame _, .ok (.frame cap), _⟩ => [cap]
  | _ => []

/-- The frame that was mapped, and the view of it. -/
def mappings : Event → List (Cap × View)
  | ⟨.map frame, .ok (.view v), _⟩ => [(frame, v)]
  | _ => []

/-- Tells whether a slot was provided for the next capability to be received. -/
def rearms : Event → Bool
  | ⟨.recvSlot _, .ok _, _⟩ => true
  | _ => false

variable {e : Event} {cap : Cap}

theorem mem_slots_of_mem_endpoints (mem : cap ∈ e.endpoints) : cap ∈ e.slots := by
  obtain ⟨r, answer, slots⟩ := e
  cases r with
  | endpoint => exact mem
  | channel => exact mem
  | _ => cases mem

/-- One request does not create both endpoints and frames. -/
theorem endpoints_or_frames (e : Event) : e.endpoints = [] ∨ e.frames = [] := by
  obtain ⟨r, answer, slots⟩ := e
  cases r with
  | endpoint => exact .inr rfl
  | channel => exact .inr rfl
  | _ => exact .inl rfl

end Event

end Kernel

open Kernel

theorem Machine.nextCap_opened {m : Machine} (left : m.Room 1) :
    m.opened.nextCap = Cap.nth (m.kernel.nextSlot.toNat + 1) := by
  rw [← toNat_nextSlot_succ left]
  exact (Cap.nth_toNat m.opened.nextCap).symm

namespace Served

variable {m m' : Machine} {r : Request} {answer : Except ChannelError Reply} {slots : List Cap}

/-! ### What one request adds -/

/-- The slots that are handed out are the next ones. -/
theorem slots_eq (served : Served m r answer slots m') :
    m'.kernel.nextSlot.toNat = m.kernel.nextSlot.toNat + slots.length ∧
      slots = (List.range slots.length).map fun i => Cap.nth (m.kernel.nextSlot.toNat + i) := by
  have first : m.nextCap = Cap.nth m.kernel.nextSlot.toNat := (Cap.nth_toNat m.nextCap).symm
  have one (left : m.Room 1) : (m.kernel.nextSlot + 1).toNat = m.kernel.nextSlot.toNat + 1 ∧
      [m.nextCap] = (List.range 1).map fun i => Cap.nth (m.kernel.nextSlot.toNat + i) :=
    ⟨Machine.toNat_nextSlot_succ left, congrArg ([·]) first⟩
  cases served with
  | refused => exact ⟨rfl, rfl⟩
  | map _ => exact ⟨rfl, rfl⟩
  | queued _ _ _ => exact ⟨rfl, rfl⟩
  | taken _ => exact ⟨rfl, rfl⟩
  | endpoint left => exact one left
  | slot left => exact one left
  | recvSlot left => exact one left
  | lone left _ => exact one left
  | frame left _ => exact one left
  | channel left =>
      have single : m.Room 1 := left.mono (Nat.le_succ 1)
      have opened : m.opened.Room 1 := (Machine.room_opened single).mpr left
      refine ⟨(Machine.toNat_nextSlot_succ opened).trans (congrArg (· + 1) (one single).1), ?_⟩
      rw [first, Machine.nextCap_opened single]
      rfl

/-- An answer names the slots that were handed out, or nothing. -/
theorem names_eq (served : Served m r answer slots m') :
    Event.names ⟨r, answer, slots⟩ = slots ∨ Event.names ⟨r, answer, slots⟩ = [] := by
  cases served with
  | lone _ _ => exact .inr rfl
  | recvSlot _ => exact .inr rfl
  | _ => exact .inl rfl

/-- Endpoints are created, and none is lost. -/
theorem contains_queues (served : Served m r answer slots m') (cap : Cap) :
    m'.kernel.queues.contains cap = true ↔
      m.kernel.queues.contains cap = true ∨ cap ∈ Event.endpoints ⟨r, answer, slots⟩ := by
  have kept (none : Event.endpoints ⟨r, answer, slots⟩ = []) : m.kernel.queues.contains cap = true ↔
      m.kernel.queues.contains cap = true ∨ cap ∈ Event.endpoints ⟨r, answer, slots⟩ := by
    simp [none]
  -- An endpoint that gets another queue was there before.
  have replaced {at' : Cap} {queue : List Letter} (letters : List Letter)
      (held : m.kernel.queues.get? at' = some queue) :
      (m.kernel.queues.insert at' letters).contains cap = true ↔
        m.kernel.queues.contains cap = true := by
    rw [Table.contains_insert, or_iff_right_iff_imp]
    rintro rfl
    rw [Table.contains, held, Option.isSome_some]
  have opened (m : Machine) : m.opened.kernel.queues.contains cap = true ↔
      m.kernel.queues.contains cap = true ∨ cap ∈ [m.nextCap] := by
    rw [List.mem_singleton, or_comm, @eq_comm _ cap]
    exact Table.contains_insert m.kernel.queues m.nextCap cap []
  cases served with
  | refused => cases r <;> exact kept rfl
  | slot _ => exact kept rfl
  | frame _ _ => exact kept rfl
  | map _ => exact kept rfl
  | recvSlot _ => exact kept rfl
  | endpoint left => exact opened m
  | lone left _ => exact opened m
  | channel left =>
      rw [opened, opened, or_assoc, ← List.mem_append]
      rfl
  | queued posts held _ =>
      obtain ⟨rfl, rfl⟩ | ⟨ep, rfl, -⟩ := Request.posts_cases posts
      · exact (replaced _ held).trans (kept rfl)
      · exact (replaced _ held).trans (kept rfl)
  | taken held => exact (replaced _ held).trans (kept rfl)

/-- A frame is allocated with a block of its own, or frames and memory stay as they are. -/
theorem frames_eq (served : Served m r answer slots m') :
    Event.frames ⟨r, answer, slots⟩ = [] ∧ m'.kernel.frames = m.kernel.frames ∧
        m'.memory = m.memory ∨
      ∃ bytes v, Event.frames ⟨r, answer, slots⟩ = [m.nextCap] ∧ slots = [m.nextCap] ∧
        m.memory.allocate bytes = .ok (v, m'.memory) ∧
        m'.kernel.frames = m.kernel.frames.insert m.nextCap v := by
  cases served with
  | frame _ allocated => exact .inr ⟨_, _, rfl, rfl, allocated, rfl⟩
  | refused => cases r <;> exact .inl ⟨rfl, rfl, rfl⟩
  | endpoint _ => exact .inl ⟨rfl, rfl, rfl⟩
  | channel _ => exact .inl ⟨rfl, rfl, rfl⟩
  | lone _ _ => exact .inl ⟨rfl, rfl, rfl⟩
  | slot _ => exact .inl ⟨rfl, rfl, rfl⟩
  | map _ => exact .inl ⟨rfl, rfl, rfl⟩
  | recvSlot _ => exact .inl ⟨rfl, rfl, rfl⟩
  | queued posts _ _ => cases r <;> exact .inl ⟨rfl, rfl, rfl⟩
  | taken _ => exact .inl ⟨rfl, rfl, rfl⟩

/-- A frame is mapped to the view that it has. -/
theorem mapped (served : Served m r answer slots m') {frame : Cap} {v : View}
    (mapping : (frame, v) ∈ Event.mappings ⟨r, answer, slots⟩) :
    m'.kernel.frames.get? frame = some v := by
  cases served with
  | map named =>
      cases List.mem_singleton.mp mapping
      exact named
  | queued posts _ _ => cases r <;> cases mapping
  | refused => cases r <;> cases mapping
  | _ => cases mapping

theorem contains_frames (served : Served m r answer slots m') (cap : Cap) :
    m'.kernel.frames.contains cap = true ↔
      m.kernel.frames.contains cap = true ∨ cap ∈ Event.frames ⟨r, answer, slots⟩ := by
  rcases served.frames_eq with ⟨none, same, -⟩ | ⟨bytes, v, one, -, -, inserted⟩
  · rw [none, same]
    simp
  · rw [one, inserted, Table.contains_insert, List.mem_singleton, or_comm, @eq_comm _ cap]

/-- A frame was there before, or it is a new block. -/
theorem frame_cases (served : Served m r answer slots m')
    {frame : Cap} {v : View} (named : m'.kernel.frames.get? frame = some v) :
    m.kernel.frames.get? frame = some v ∨
      frame = m.nextCap ∧ v.block = m.memory.blocks.size ∧ m'.memory.Holds v ∧
        m'.memory.blocks.size = m.memory.blocks.size + 1 := by
  rcases served.frames_eq with ⟨-, same, -⟩ | ⟨bytes, w, -, -, allocated, inserted⟩
  · exact .inl (same ▸ named)
  · rw [inserted, Table.get?_insert] at named
    by_cases new : m.nextCap = frame
    · rw [if_pos new] at named
      cases named
      obtain ⟨block, size⟩ := Memory.size_allocate allocated
      exact .inr ⟨new.symm, block, (Memory.allocate_ok allocated).2.1, size⟩
    · rw [if_neg new] at named
      exact .inl named

/-- Memory only grows. -/
theorem grows (served : Served m r answer slots m') : m.memory.Grows m'.memory := by
  rcases served.frames_eq with ⟨-, -, same⟩ | ⟨bytes, v, -, -, allocated, -⟩
  · exact same ▸ .refl m.memory
  · exact Memory.grows_allocate allocated

theorem mem_slots_of_mem_frames (served : Served m r answer slots m') {cap : Cap}
    (mem : cap ∈ Event.frames ⟨r, answer, slots⟩) : cap ∈ slots := by
  rcases served.frames_eq with ⟨none, -⟩ | ⟨bytes, v, one, slot, -⟩
  · rw [none] at mem
    cases mem
  · rw [slot, ← one]
    exact mem

/-- A slot that is handed out lies between what the counter was and what it is. -/
theorem slot_between (served : Served m r answer slots m') {cap : Cap} (mem : cap ∈ slots) :
    m.kernel.nextSlot.toNat ≤ cap.slot.toNat ∧ cap.slot.toNat < m'.kernel.nextSlot.toNat := by
  obtain ⟨next, same⟩ := served.slots_eq
  rw [same] at mem
  obtain ⟨i, inside, rfl⟩ := List.mem_map.mp mem
  have inside := List.mem_range.mp inside
  have below := m'.kernel.nextSlot.toNat_lt
  rw [Cap.toNat_nth (by omega)]
  omega

theorem recvSlots_eq (served : Served m r answer slots m') :
    m'.kernel.recvSlots =
      m.kernel.recvSlots + [(⟨r, answer, slots⟩ : Event)].countP Event.rearms := by
  cases served with
  | queued posts _ _ =>
      obtain ⟨rfl, rfl⟩ | ⟨ep, rfl, -⟩ := Request.posts_cases posts
      · rfl
      · rfl
  | refused => cases r <;> rfl
  | _ => rfl

end Served

/-! ### What the names are after any requests -/

/-- After the requests of a log, every name was handed out by the counter, and what it names is
still there. -/
structure Registered (log : List Event) (m : Machine) : Prop where
  slots : log.flatMap Event.slots = (List.range m.kernel.nextSlot.toNat).map Cap.nth
  names : ∀ e ∈ log, e.names = e.slots ∨ e.names = []
  endpoints : ∀ cap, m.kernel.queues.contains cap = true ↔ cap ∈ log.flatMap Event.endpoints
  frames : ∀ cap, m.kernel.frames.contains cap = true ↔ cap ∈ log.flatMap Event.frames
  below : ∀ cap, m.kernel.queues.contains cap = true ∨ m.kernel.frames.contains cap = true →
    cap.slot.toNat < m.kernel.nextSlot.toNat
  disjoint : ∀ cap, m.kernel.queues.contains cap = true → ¬ m.kernel.frames.contains cap = true
  mapped : ∀ frame v, (frame, v) ∈ log.flatMap Event.mappings →
    m.kernel.frames.get? frame = some v
  placed : ∀ frame v, m.kernel.frames.get? frame = some v →
    v.block < m.memory.blocks.size ∧ m.memory.Holds v
  apart : ∀ frame v other w, m.kernel.frames.get? frame = some v →
    m.kernel.frames.get? other = some w → frame ≠ other → v.block ≠ w.block
  recvSlots : m.kernel.recvSlots = log.countP Event.rearms

namespace Registered

variable {log : List Event} {m m' : Machine} {r : Request} {answer : Except ChannelError Reply}
  {slots : List Cap}

theorem create (depth : Nat) : Registered [] (Machine.create depth) where
  slots := rfl
  names _ mem := nomatch mem
  endpoints _ := iff_of_false (fun known => nomatch known) List.not_mem_nil
  frames _ := iff_of_false (fun known => nomatch known) List.not_mem_nil
  below _ known := nomatch known
  disjoint _ known := nomatch known
  mapped _ _ mem := nomatch mem
  placed _ _ known := nomatch known
  apart _ _ _ _ known := nomatch known
  recvSlots := rfl

/-- Nothing has the next name yet. -/
theorem fresh (registered : Registered log m) :
    m.kernel.queues.contains m.nextCap = false ∧ m.kernel.frames.get? m.nextCap = none := by
  have queue : ¬ m.kernel.queues.contains m.nextCap = true := fun known =>
    Nat.lt_irrefl _ (registered.below _ (.inl known))
  have frame : ¬ m.kernel.frames.contains m.nextCap = true := fun known =>
    Nat.lt_irrefl _ (registered.below _ (.inr known))
  rw [Table.contains] at frame
  exact ⟨Bool.eq_false_iff.mpr queue, Option.not_isSome_iff_eq_none.mp frame⟩

/-- A frame keeps the view that it got. -/
theorem frame_stays (registered : Registered log m) (served : Served m r answer slots m')
    {frame : Cap} {v : View} (named : m.kernel.frames.get? frame = some v) :
    m'.kernel.frames.get? frame = some v := by
  rcases served.frames_eq with ⟨-, same, -⟩ | ⟨bytes, w, -, -, -, inserted⟩
  · rw [same, named]
  · rw [inserted, Table.get?_insert, if_neg, named]
    rintro rfl
    rw [registered.fresh.2] at named
    cases named

/-- Every request keeps the names. -/
theorem step (registered : Registered log m) (served : Served m r answer slots m') :
    Registered (log ++ [⟨r, answer, slots⟩]) m' where
  slots := by
    obtain ⟨next, same⟩ := served.slots_eq
    rw [List.flatMap_append, registered.slots, next, List.range_add, List.map_append,
      List.map_map, List.flatMap_singleton]
    exact congrArg (_ ++ ·) same
  names e mem := by
    rcases List.mem_append.mp mem with old | new
    · exact registered.names e old
    · rw [List.mem_singleton.mp new]
      exact served.names_eq
  endpoints cap := by
    rw [served.contains_queues, registered.endpoints, List.flatMap_append, List.mem_append,
      List.flatMap_singleton]
  frames cap := by
    rw [served.contains_frames, registered.frames, List.flatMap_append, List.mem_append,
      List.flatMap_singleton]
  below cap known := by
    rw [served.contains_queues, served.contains_frames] at known
    have old (known : m.kernel.queues.contains cap = true ∨ m.kernel.frames.contains cap = true) :
        cap.slot.toNat < m'.kernel.nextSlot.toNat :=
      Nat.lt_of_lt_of_le (registered.below cap known) (served.slots_eq.1 ▸ Nat.le_add_right _ _)
    rcases known with (queue | endpoint) | (frame | new)
    · exact old (.inl queue)
    · exact (served.slot_between (Event.mem_slots_of_mem_endpoints endpoint)).2
    · exact old (.inr frame)
    · exact (served.slot_between (served.mem_slots_of_mem_frames new)).2
  disjoint cap queue frame := by
    -- What is new has a name that nothing had before.
    have unused {old : Prop} (known : old → m.kernel.queues.contains cap = true ∨
        m.kernel.frames.contains cap = true) (mem : cap ∈ slots) : ¬ old := fun holds =>
      Nat.not_lt_of_le (served.slot_between mem).1 (registered.below cap (known holds))
    rcases (served.contains_queues cap).mp queue with queue | endpoint
    · rcases (served.contains_frames cap).mp frame with frame | new
      · exact registered.disjoint cap queue frame
      · exact unused .inl (served.mem_slots_of_mem_frames new) queue
    · rcases (served.contains_frames cap).mp frame with frame | new
      · exact unused .inr (Event.mem_slots_of_mem_endpoints endpoint) frame
      · rcases Event.endpoints_or_frames ⟨r, answer, slots⟩ with none | none
        · rw [none] at endpoint
          cases endpoint
        · rw [none] at new
          cases new
  mapped frame v mapping := by
    rw [List.flatMap_append, List.mem_append, List.flatMap_singleton] at mapping
    rcases mapping with old | new
    · exact registered.frame_stays served (registered.mapped frame v old)
    · exact served.mapped new
  placed frame v named := by
    rcases served.frame_cases named with old | ⟨-, block, held, size⟩
    · obtain ⟨block, held⟩ := registered.placed frame v old
      exact ⟨Nat.lt_of_lt_of_le block served.grows.size, served.grows.holds v held⟩
    · exact ⟨by omega, held⟩
  apart frame v other w named named' distinct := by
    rcases served.frame_cases named with old | ⟨new, block, -⟩
    · have first := (registered.placed frame v old).1
      rcases served.frame_cases named' with old' | ⟨-, block', -⟩
      · exact registered.apart frame v other w old old' distinct
      · omega
    · rcases served.frame_cases named' with old' | ⟨new', -⟩
      · have second := (registered.placed other w old').1
        omega
      · exact absurd (new.trans new'.symm) distinct
  recvSlots := by
    rw [served.recvSlots_eq, registered.recvSlots, List.countP_append]

/-- The slots that were handed out increase. -/
theorem increasing (registered : Registered log m) :
    (log.flatMap Event.slots).Pairwise fun a b => a.slot < b.slot := by
  have below := m.kernel.nextSlot.toNat_lt
  rw [registered.slots, List.pairwise_map]
  refine List.pairwise_lt_range.imp_of_mem fun {i j} hi hj less => ?_
  rw [List.mem_range] at hi hj
  rw [UInt32.lt_iff_toNat_lt, Cap.toNat_nth (by omega), Cap.toNat_nth (by omega)]
  exact less

theorem length_slots (registered : Registered log m) :
    (log.flatMap Event.slots).length = m.kernel.nextSlot.toNat := by
  rw [registered.slots, List.length_map, List.length_range]

end Registered

/-! ### Names and what they name -/

/-- Endpoints, and frames with their memory, are all still there. -/
structure Machine.Lasts (m m' : Machine) : Prop where
  endpoints : ∀ cap, m.kernel.queues.contains cap = true → m'.kernel.queues.contains cap = true
  frames : ∀ cap v, m.kernel.mapFrame cap = .ok v → m'.kernel.mapFrame cap = .ok v

/-- A frame is mapped to its view. -/
theorem Kernel.mapFrame_eq_ok {k : Kernel} {frame : Cap} {v : View} :
    k.mapFrame frame = .ok v ↔ k.frames.get? frame = some v := by
  unfold mapFrame
  cases k.frames.get? frame with
  | none => simp
  | some view => simp

/-- What is refused is refused before anything is changed, except that a channel may have got its
first end already. -/
theorem Machine.serve_refused {m m' : Machine} (quiet : m.Quiet) {r : Request} {e : ChannelError}
    (refused : m.serve r = .ok (.error e, m')) (single : r ≠ .channel) : m' = m := by
  have served := serve_served quiet refused
  generalize m.kernel.slotsFor r.demand = slots at served
  cases served with
  | refused => rfl
  | lone _ _ => exact absurd rfl single

/-- Whoever asks for a slot when none is left is refused. -/
theorem Machine.serve_exhausted {m : Machine} (quiet : m.Quiet) (left : ¬ m.Room 1) {r : Request}
    (asks : 0 < r.demand) : m.serve r = .ok (.error .noSpace, m) := by
  cases r with
  | endpoint => rw [serve, create_error left]; rfl
  | channel => simp only [serve, Endpoint.createPair, create_error left]; rfl
  | slot => simp only [serve, onKernel, allocSlot_error left]; rfl
  | frame bytes => simp only [serve, allocFrame, allocSlot_error left]; rfl
  | recvSlot ep =>
      simp only [serve, Endpoint.allocRecvSlot, Endpoint.unlessFault, quiet.nextFault, onKernel_,
        onKernel, allocRecvSlot, allocSlot_error left]
      rfl
  | _ => exact absurd asks (Nat.lt_irrefl 0)

/-- Whoever asks for slots while so many are left is not refused. -/
theorem Machine.serve_granted {m m' : Machine} (quiet : m.Quiet) {r : Request} (asks : 0 < r.demand)
    (left : m.Room r.demand) {answer : Except ChannelError Reply}
    (answered : m.serve r = .ok (answer, m')) : ∃ reply, answer = .ok reply := by
  have handed : m.kernel.slotsFor r.demand ≠ [] := by
    obtain ⟨n, more⟩ := Nat.exists_eq_succ_of_ne_zero (Nat.ne_of_gt asks)
    rw [more, slotsFor, allocSlot_ok (left.mono asks)]
    exact List.cons_ne_nil _ _
  have served := serve_served quiet answered
  generalize m.kernel.slotsFor r.demand = slots at served handed
  cases served with
  | refused => exact absurd rfl handed
  | lone _ last => exact absurd left last
  | _ => exact ⟨_, rfl⟩

/-- After the requests of a log, each name was given once. -/
structure Naming (log : List Event) (m : Machine) : Prop where
  /-- The slots that were handed out increase, so no two are the same. -/
  increasing : (log.flatMap Event.slots).Pairwise fun a b => a.slot < b.slot
  /-- An answer that names something names the slots that were handed out for it. -/
  names : ∀ e ∈ log, e.names = e.slots ∨ e.names = []
  endpoints : ∀ cap, m.kernel.queues.contains cap = true ↔ cap ∈ log.flatMap Event.endpoints
  frames : ∀ cap, m.kernel.frames.contains cap = true ↔ cap ∈ log.flatMap Event.frames
  disjoint : ∀ cap, m.kernel.queues.contains cap = true → ¬ m.kernel.frames.contains cap = true
  below : ∀ cap, m.kernel.queues.contains cap = true ∨ m.kernel.frames.contains cap = true →
    cap.slot < m.kernel.nextSlot
  /-- No name is removed, and a frame keeps its memory, whatever is asked for next. -/
  lasting : ∀ requests later m', m.serveAll requests = .ok (later, m') → m.Lasts m'
  /-- Exactly the frames that were allocated can be mapped. -/
  maps : ∀ cap, (∃ v, m.kernel.mapFrame cap = .ok v) ↔ cap ∈ log.flatMap Event.frames
  /-- Whenever a frame was mapped, it was the memory that it has now. -/
  mapped : ∀ frame v, (frame, v) ∈ log.flatMap Event.mappings → m.kernel.mapFrame frame = .ok v
  /-- Frames show different blocks of memory, each of them its own. -/
  apart : ∀ frame v other w, m.kernel.mapFrame frame = .ok v → m.kernel.mapFrame other = .ok w →
    frame ≠ other → v.block ≠ w.block
  held : ∀ frame v, m.kernel.mapFrame frame = .ok v → m.memory.Holds v
  /-- Receive slots are counted when they are handed out. -/
  recvSlots : m.kernel.recvSlots = log.countP Event.rearms
  /-- When all slots are used, whatever needs one is refused and changes nothing. -/
  exhausted : (log.flatMap Event.slots).length = 0xffffffff → ∀ r : Request, 0 < r.demand →
    m.serve r = .ok (.error .noSpace, m)
  /-- While enough slots are left, whatever needs slots is granted, unless it is a frame that no
  memory could hold. -/
  granted : ∀ r : Request, 0 < r.demand →
    (log.flatMap Event.slots).length + r.demand ≤ 0xffffffff →
      (∃ reply m', m.serve r = .ok (.ok reply, m')) ∨
        m.serve r = .error .tooLarge ∧
          ∃ bytes, r = .frame bytes ∧ Memory.wordLimit ≤ Word.countFor bytes
  /-- A refusal changes nothing, unless it is a channel that lacks its second end. -/
  refused : ∀ r e m', m.serve r = .ok (.error e, m') → r ≠ .channel → m' = m

namespace Registered

variable {log : List Event} {m m' : Machine}

/-- Names last as long as the kernel does. -/
theorem lasts (registered : Registered log m) (quiet : m.Quiet) {requests : List Request}
    {later : List Event} (ran : m.serveAll requests = .ok (later, m')) : m.Lasts m' := by
  have kept := Machine.serveAll_keeps (fun log' m' => Registered log' m' ∧ m.Lasts m')
    (fun {_ m₁ m₂ _ _ _} now served => ⟨now.1.step served, {
      endpoints := fun cap known =>
        (served.contains_queues cap).mpr (.inl (now.2.endpoints cap known))
      frames := fun cap v maps => Kernel.mapFrame_eq_ok.mpr
        (now.1.frame_stays served (Kernel.mapFrame_eq_ok.mp (now.2.frames cap v maps))) }⟩)
    quiet ⟨registered, fun _ known => known, fun _ _ maps => maps⟩ requests
  rcases kept with ⟨_, _, ran', -, -, -, lasts⟩ | ⟨panics, -⟩
  · rw [ran] at ran'
    cases ran'
    exact lasts
  · rw [ran] at panics
    cases panics

theorem naming (registered : Registered log m) (quiet : m.Quiet) : Naming log m where
  increasing := registered.increasing
  names := registered.names
  endpoints := registered.endpoints
  frames := registered.frames
  disjoint := registered.disjoint
  below cap known := UInt32.lt_iff_toNat_lt.mpr (registered.below cap known)
  lasting _ _ _ ran := registered.lasts quiet ran
  maps cap := by
    rw [← registered.frames, Table.contains, Option.isSome_iff_exists]
    exact exists_congr fun v => Kernel.mapFrame_eq_ok
  mapped frame v mapping := Kernel.mapFrame_eq_ok.mpr (registered.mapped frame v mapping)
  apart frame v other w named named' :=
    registered.apart frame v other w (Kernel.mapFrame_eq_ok.mp named) (Kernel.mapFrame_eq_ok.mp named')
  held frame v named := (registered.placed frame v (Kernel.mapFrame_eq_ok.mp named)).2
  recvSlots := registered.recvSlots
  exhausted all r asks := by
    refine Machine.serve_exhausted quiet (fun left => ?_) asks
    unfold Machine.Room at left
    rw [registered.length_slots] at all
    omega
  granted r asks left := by
    rw [registered.length_slots] at left
    rcases m.serve_returns r with ⟨answer, m', answered⟩ | large
    · obtain ⟨reply, rfl⟩ := Machine.serve_granted quiet asks left answered
      exact .inl ⟨reply, m', answered⟩
    · exact .inr large
  refused _ _ _ refused single := Machine.serve_refused quiet refused single

end Registered

/-- Whatever a kernel is asked for in whatever order, every slot is handed out once, the names of
endpoints and frames are slots of their own and stay, and a frame is a block of memory that no
other name shows. All requests return, unless one asks for a frame that no memory could hold. -/
theorem Kernel.names_given_once (depth : Nat) (requests : List Request) :
    (∃ log m, (Machine.create depth).serveAll requests = .ok (log, m) ∧
        log.map Event.request = requests ∧ Naming log m) ∨
      (Machine.create depth).serveAll requests = .error .tooLarge ∧
        ∃ bytes, .frame bytes ∈ requests ∧ Memory.wordLimit ≤ Word.countFor bytes := by
  have quiet : (Machine.create depth).Quiet := fun _ => rfl
  rcases Machine.serveAll_keeps Registered Registered.step quiet (.create depth) requests with
    ⟨log, m, ran, asked, quiet, registered⟩ | panics
  · exact .inl ⟨log, m, ran, asked, registered.naming quiet⟩
  · exact .inr panics

end Conduit

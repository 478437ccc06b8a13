/-
# Two parties that agree

Two parties share one channel and nothing else that counts. They agree if nothing waits
on the channel, neither is owed a reply, both know the message types that are called by
the same bindings, and the page that one of them set up for its calls of a type is the
page at which the other reads them. Pages for different types or directions lie in
different blocks.

`Agreed` is kept by whatever leaves the channel alone, and by the set-up of a page
(`preparePage_cases`), which needs a slot for the frame, one for the next capability, and
a visit of the other party.
-/

import Conduit.Proofs.Call.Dispatch
import Conduit.Proofs.Call.Registering

namespace Conduit

namespace Rpc

variable {η ζ τ : Type}

/-- The message types that are called, with the bindings on which two parties agree. -/
structure Agreement where
  /-- The binding of a type that is called. -/
  binding? : MessageType → Option Binding
  simple : ∀ t binding, binding? t = some binding → binding.isSimple = true
  notSetup : binding? setupPage = none
  notInitiate : binding? initiate = none
  asks : ∀ t binding, binding? t = some binding → MessageType.isResponse t.code = false

theorem Agreement.ne_setupPage (agreement : Agreement) {t : MessageType} {binding : Binding}
    (known : agreement.binding? t = some binding) : t ≠ setupPage := by
  rintro rfl
  cases agreement.notSetup.symm.trans known

theorem Agreement.ne_initiate (agreement : Agreement) {t : MessageType} {binding : Binding}
    (known : agreement.binding? t = some binding) : t ≠ initiate := by
  rintro rfl
  cases agreement.notInitiate.symm.trans known

/-- A party that knows the agreed bindings and is owed nothing. -/
structure Registered (agreement : Agreement) (rpc : Rpc η) : Prop where
  setup : rpc.binding? setupPage = some setupPageBinding
  bound : ∀ t binding, agreement.binding? t = some binding → rpc.binding? t = some binding
  unmarked : rpc.awaiting = none

theorem Registered.idle {agreement : Agreement} {rpc : Rpc η}
    (registered : Registered agreement rpc) : rpc.isOutstanding = false := by
  rw [isOutstanding, registered.unmarked]
  rfl

/-- Two parties, the machine that they share, and what their handlers see besides. -/
structure World (η ζ τ : Type) where
  /-- The machine. -/
  machine : Machine
  /-- The party at one end of the channel. -/
  left : Rpc η
  /-- The party at the other end. -/
  right : Rpc ζ
  /-- The rest. -/
  rest : τ

/-- Which of the two parties makes the calls. -/
inductive Direction where
  | forth
  | back
  deriving DecidableEq

namespace World

/-- The other way round. -/
def swap (w : World η ζ τ) : World ζ η τ := ⟨w.machine, w.right, w.left, w.rest⟩

/-- What the left party sees. -/
def scene (w : World η ζ τ) : Scene (Rpc ζ × τ) := ⟨w.machine, (w.right, w.rest)⟩

/-- The left party runs a task while the right one attends to its messages. -/
def moment [Handler ζ τ] (w : World η ζ τ) (visits : List (List Act)) :
    Moment (Rpc η) (Rpc ζ × τ) := ⟨w.left, w.scene, visits.map attend⟩

/-- What is left of a task of the left party. -/
def after (now : Moment (Rpc η) (Rpc ζ × τ)) : World η ζ τ :=
  ⟨now.scene.machine, now.self, now.scene.others.1, now.scene.others.2⟩

/-- The page that the caller set up for a message type. -/
def page (w : World η ζ τ) : Direction → MessageType → Option View
  | .forth, t => w.left.page? t .near
  | .back, t => w.right.page? t .near

end World

/-- The two parties agree and nothing is under way. -/
structure Agreed (agreement : Agreement) (a b : Cap) (w : World η ζ τ) : Prop where
  left : Registered agreement w.left
  right : Registered agreement w.right
  across : w.left.transport = .endpoint (.joining a b)
  ready : Ready a b w.scene [] []
  forth : ∀ t, w.right.page? t .far = w.page .forth t
  back : ∀ t, w.left.page? t .far = w.page .back t
  mapped : ∀ d t, Mapped w.machine.memory (w.page d t)
  placed : ∀ d t v, w.page d t = some v → v.block < w.machine.memory.blocks.size
  apart : ∀ d t v d' t' v', w.page d t = some v → w.page d' t' = some v' →
    (d, t) ≠ (d', t') → v.block ≠ v'.block

/-- The same direction, seen from the other party. -/
def Direction.flip : Direction → Direction
  | forth => back
  | back => forth

theorem Direction.flip_flip (d : Direction) : d.flip.flip = d := by
  cases d with
  | forth => rfl
  | back => rfl

theorem World.page_swap (w : World η ζ τ) (d : Direction) (t : MessageType) :
    w.swap.page d t = w.page d.flip t := by
  cases d with
  | forth => rfl
  | back => rfl

variable {agreement : Agreement} {a b : Cap} {w : World η ζ τ} {m : Machine} {t : MessageType}
  {binding : Binding} {visits : List (List Act)}

namespace Agreed

theorem swap (agreed : Agreed agreement a b w) : Agreed agreement b a w.swap where
  left := agreed.right
  right := agreed.left
  across := agreed.ready.across
  ready := ⟨agreed.across, agreed.ready.duplex.symm⟩
  forth := agreed.back
  back := agreed.forth
  mapped d t := by
    rw [World.page_swap]
    exact agreed.mapped d.flip t
  placed d t v same := by
    rw [World.page_swap] at same
    exact agreed.placed _ t v same
  apart d t v d' t' v' same same' ne := by
    rw [World.page_swap] at same same'
    refine agreed.apart _ t v _ t' v' same same' fun eq => ne ?_
    obtain ⟨flipped, rfl⟩ := Prod.mk.inj eq
    rw [← d.flip_flip, flipped, d'.flip_flip]

/-- Whatever leaves the channel alone keeps the agreement. -/
theorem leaves (agreed : Agreed agreement a b w) (leaves : Leaves a b w.machine m) :
    Agreed agreement a b { w with machine := m } where
  left := agreed.left
  right := agreed.right
  across := agreed.across
  ready := ⟨agreed.ready.across, leaves.duplex⟩
  forth := agreed.forth
  back := agreed.back
  mapped d t := (agreed.mapped d t).grows leaves.grows
  placed d t v same := Nat.lt_of_lt_of_le (agreed.placed d t v same) leaves.grows.size
  apart := agreed.apart

/-- The handlers do not matter, nor what else they see. -/
theorem handled (agreed : Agreed agreement a b w) (t : MessageType) (handler : ζ) (s : τ) :
    Agreed agreement a b { w with right := w.right.handle t handler, rest := s } where
  left := agreed.left
  right := ⟨agreed.right.setup, agreed.right.bound, agreed.right.unmarked⟩
  across := agreed.across
  ready := ⟨agreed.ready.across, agreed.ready.duplex⟩
  forth := agreed.forth
  back := agreed.back
  mapped := agreed.mapped
  placed := agreed.placed
  apart := agreed.apart

end Agreed

/-! ### Before the first call -/

/-- Nothing was called yet: the parties know the agreed bindings, no page is set up, and
nothing waits. -/
structure Fresh (agreement : Agreement) (a b : Cap) (w : World η ζ τ) : Prop where
  left : Registered agreement w.left
  right : Registered agreement w.right
  across : w.left.transport = .endpoint (.joining a b)
  ready : Ready a b w.scene [] []
  unpaged : ∀ t side, w.left.page? t side = none ∧ w.right.page? t side = none

theorem Fresh.agreed (fresh : Fresh agreement a b w) : Agreed agreement a b w := by
  have none : ∀ d t, w.page d t = none := by
    intro d t
    cases d with
    | forth => exact (fresh.unpaged t .near).1
    | back => exact (fresh.unpaged t .near).2
  constructor
  · exact fresh.left
  · exact fresh.right
  · exact fresh.across
  · exact fresh.ready
  · exact fun t => (fresh.unpaged t .far).2.trans (none .forth t).symm
  · exact fun t => (fresh.unpaged t .far).1.trans (none .back t).symm
  · intro d t v same
    cases (none d t).symm.trans same
  · intro d t v same
    cases (none d t).symm.trans same
  · intro d t v d' t' v' same
    cases (none d t).symm.trans same

/-- A party that has registered its bindings and has its handlers. -/
def enrolled (ep : Endpoint) (bindings : List Binding) (handlers : Table MessageType η)
    (pageSize : Nat) : Rpc η :=
  { ((create (.endpoint ep) : Rpc η).registerAll bindings).2 with handlers, pageSize }

section Enrolled

variable {ep : Endpoint} {bindings bindings' : List Binding} {handlers : Table MessageType η}
  {handlers' : Table MessageType ζ} {pageSize pageSize' : Nat}

theorem page?_enrolled (t : MessageType) (side : Side) :
    (enrolled ep bindings handlers pageSize).page? t side = none := by
  have bare : ({ transport := .endpoint ep, pageSize := standardPageSize } : Rpc η).page? t side =
      none := rfl
  exact page?_registerAll _ (page?_registerAll _ bare)

theorem registered_enrolled (other : ∀ binding ∈ bindings, binding.type ≠ setupPage)
    (bound : ∀ t binding, agreement.binding? t = some binding →
      (enrolled ep bindings handlers pageSize).binding? t = some binding) :
    Registered agreement (enrolled ep bindings handlers pageSize) where
  setup := (binding?_registerAll _ other).trans rfl
  bound := bound
  unmarked := by
    unfold enrolled
    rw [registerAll_entries]
    rfl

/-- Two parties at the ends of a channel, which registered the agreed bindings among
others, are ready for the first call. -/
theorem fresh_enrolled (duplex : Duplex m a b [] [])
    (other : ∀ binding ∈ bindings, binding.type ≠ setupPage)
    (other' : ∀ binding ∈ bindings', binding.type ≠ setupPage)
    (bound : ∀ t binding, agreement.binding? t = some binding →
      (enrolled (.joining a b) bindings handlers pageSize).binding? t = some binding)
    (bound' : ∀ t binding, agreement.binding? t = some binding →
      (enrolled (.joining b a) bindings' handlers' pageSize').binding? t = some binding)
    (s : τ) : Fresh agreement a b ⟨m, enrolled (.joining a b) bindings handlers pageSize,
      enrolled (.joining b a) bindings' handlers' pageSize', s⟩ where
  left := registered_enrolled other bound
  right := registered_enrolled other' bound'
  across := by
    unfold enrolled
    rw [registerAll_entries]
    rfl
  ready := by
    refine ⟨?_, duplex⟩
    unfold World.scene enrolled
    rw [registerAll_entries (create (.endpoint (.joining b a)))]
    rfl
  unpaged t side := ⟨page?_enrolled t side, page?_enrolled t side⟩

end Enrolled

/-! ### A new page -/

/-- A party that knows a page of its own, or of its peer, for a message type. -/
def setPage (rpc : Rpc η) (t : MessageType) (change : Entry → Entry) : Rpc η :=
  { rpc with entries := rpc.entries.modify t change }

theorem binding?_setPage (rpc : Rpc η) (t t' : MessageType) {change : Entry → Entry}
    (keeps : ∀ entry, (change entry).binding = entry.binding) :
    (rpc.setPage t change).binding? t' = rpc.binding? t' := by
  unfold binding? setPage
  rw [Table.get?_modify]
  by_cases same : t = t'
  · rw [if_pos same, Option.map_map]
    exact congrFun (congrArg Option.map (funext keeps)) _
  · rw [if_neg same]

theorem page?_setPage_of_keeps (rpc : Rpc η) (t t' : MessageType) {change : Entry → Entry}
    {side : Side} (keeps : ∀ entry, (change entry).page side = entry.page side) :
    (rpc.setPage t change).page? t' side = rpc.page? t' side := by
  unfold page? setPage
  rw [Table.get?_modify]
  by_cases same : t = t'
  · rw [if_pos same, Option.bind_map]
    exact congrFun (congrArg (fun f => (Option.bind · f)) (funext keeps)) _
  · rw [if_neg same]

theorem page?_setPage {rpc : Rpc η} (known : rpc.binding? t = some binding) (t' : MessageType)
    {change : Entry → Entry} {side : Side} {view : View}
    (sets : ∀ entry, (change entry).page side = some view) :
    (rpc.setPage t change).page? t' side = if t = t' then some view else rpc.page? t' side := by
  unfold page? setPage
  rw [Table.get?_modify]
  by_cases same : t = t'
  · obtain ⟨entry, some, -⟩ := Option.map_eq_some_iff.mp known
    rw [if_pos same, if_pos same, ← same, some]
    exact sets entry
  · rw [if_neg same, if_neg same]

theorem Registered.setPage {rpc : Rpc η} (registered : Registered agreement rpc) (t : MessageType)
    {change : Entry → Entry} (keeps : ∀ entry, (change entry).binding = entry.binding) :
    Registered agreement (rpc.setPage t change) where
  setup := (binding?_setPage rpc t _ keeps).trans registered.setup
  bound t' binding some := (binding?_setPage rpc t _ keeps).trans (registered.bound t' binding some)
  unmarked := registered.unmarked

/-- The caller and its peer know a page for the calls of a message type. -/
def World.paged (w : World η ζ τ) (t : MessageType) (view : View) (m : Machine) : World η ζ τ where
  machine := m
  left := w.left.setPage t ({ · with nearPage := some view })
  right := w.right.setPage t ({ · with farPage := some view })
  rest := w.rest

theorem page_paged (known : w.left.binding? t = some binding) (view : View) (d : Direction)
    (t' : MessageType) : (w.paged t view m).page d t' =
      if d = .forth ∧ t = t' then some view else w.page d t' := by
  cases d with
  | forth =>
      have set : (w.paged t view m).page .forth t' = _ := page?_setPage known t' fun _ => rfl
      rw [set]
      by_cases same : t = t'
      · rw [if_pos same, if_pos ⟨rfl, same⟩]
      · rw [if_neg same, if_neg fun both => same both.2]
        rfl
  | back =>
      have kept : (w.paged t view m).page .back t' = _ :=
        page?_setPage_of_keeps w.right t t' fun _ => rfl
      rw [kept, if_neg fun both => Direction.noConfusion both.1]
      rfl

/-- A page in a new block is a page on which both agree. -/
theorem Agreed.paged (agreed : Agreed agreement a b w) (leaves : Leaves a b w.machine m)
    (known : agreement.binding? t = some binding) {view : View}
    (mapped : Mapped m.memory (some view)) (inside : view.block < m.memory.blocks.size)
    (fresh : view.block = w.machine.memory.blocks.size) :
    Agreed agreement a b (w.paged t view m) := by
  have left := agreed.left.bound t binding known
  have right := agreed.right.bound t binding known
  have pages := page_paged (w := w) (m := m) left view
  have before := agreed.leaves leaves
  constructor
  · exact agreed.left.setPage t fun _ => rfl
  · exact agreed.right.setPage t fun _ => rfl
  · exact agreed.across
  · exact ⟨agreed.ready.across, leaves.duplex⟩
  · intro t'
    have far : (w.paged t view m).right.page? t' .far = _ := page?_setPage right t' fun _ => rfl
    rw [far, pages .forth t']
    by_cases same : t = t'
    · rw [if_pos same, if_pos ⟨rfl, same⟩]
    · rw [if_neg same, if_neg fun both => same both.2]
      exact agreed.forth t'
  · intro t'
    have far : (w.paged t view m).left.page? t' .far = _ :=
      page?_setPage_of_keeps w.left t t' fun _ => rfl
    rw [far, pages .back t', if_neg fun both => Direction.noConfusion both.1]
    exact agreed.back t'
  · intro d t'
    rw [pages]
    by_cases new : d = .forth ∧ t = t'
    · rw [if_pos new]
      exact mapped
    · rw [if_neg new]
      exact before.mapped d t'
  · intro d t' v same
    rw [pages] at same
    by_cases new : d = .forth ∧ t = t'
    · rw [if_pos new] at same
      rw [← Option.some.inj same]
      exact inside
    · rw [if_neg new] at same
      exact before.placed d t' v same
  · intro d t' v d' t'' v' same same' ne
    rw [pages] at same same'
    by_cases new : d = .forth ∧ t = t'
    · rw [if_pos new] at same
      have other : ¬ (d' = .forth ∧ t = t'') := fun new' =>
        ne (Prod.ext (new.1.trans new'.1.symm) (new.2.symm.trans new'.2))
      rw [if_neg other] at same'
      have old := agreed.placed d' t'' v' same'
      rw [← Option.some.inj same, fresh]
      exact Nat.ne_of_gt old
    · rw [if_neg new] at same
      have old := agreed.placed d t' v same
      by_cases new' : d' = .forth ∧ t = t''
      · rw [if_pos new'] at same'
        rw [← Option.some.inj same', fresh]
        exact Nat.ne_of_lt old
      · rw [if_neg new'] at same'
        exact agreed.apart d t' v d' t'' v' same same' ne

/-! ### Setting up a page -/

/-- A frame of this many bytes was allocated, in a block of its own. -/
structure Framed (a b : Cap) (m : Machine) (bytes : Nat) (frame : Cap) (view : View)
    (m' : Machine) : Prop where
  ran : m.callAllocFrame bytes = .ok (.ok frame, m')
  leaves : Leaves a b m m'
  named : m'.kernel.frames.get? frame = some view
  mapped : Mapped m'.memory (some view)
  words : view.words = Word.countFor bytes
  fresh : view.block = m.memory.blocks.size
  inside : view.block < m'.memory.blocks.size
  slots : m'.kernel.nextSlot.toNat ≤ m.kernel.nextSlot.toNat + 1

/-- A frame is allocated unless no slot is left, or it could not be addressed. -/
theorem allocFrame_cases (duplex : Duplex m a b [] []) (bytes : Nat) :
    (∃ frame view m', Framed a b m bytes frame view m') ∨
      ¬ m.Room 1 ∧ m.callAllocFrame bytes = .ok (.error .noSpace, m) ∨
      ¬ Word.countFor bytes < Memory.wordLimit ∧
        ∃ cause, m.callAllocFrame bytes = .error cause := by
  have unplanned : m.callAllocFrame bytes = m.allocFrame bytes := by
    unfold Machine.callAllocFrame
    rw [duplex.quiet.nextFault]
  by_cases last : m.kernel.nextSlot = 0xffffffff
  · refine .inr (.inl ⟨fun room => room.slot_ne last, ?_⟩)
    rw [unplanned, Machine.allocFrame, Kernel.allocSlot, if_pos last]
  by_cases small : Word.countFor bytes < Memory.wordLimit
  · let view : View := ⟨m.memory.blocks.size, 0, Word.countFor bytes⟩
    let memory : Memory := { m.memory with
      blocks := m.memory.blocks.push (Array.replicate (Word.countFor bytes) 0) }
    have allocated : m.memory.allocate bytes = .ok (view, memory) := if_pos small
    obtain ⟨-, held, -⟩ := Memory.allocate_ok allocated
    refine .inl ⟨⟨m.kernel.nextSlot⟩, view,
      { m with
        kernel := { m.kernel with
          nextSlot := m.kernel.nextSlot + 1
          frames := m.kernel.frames.insert ⟨m.kernel.nextSlot⟩ view }
        memory }, ?_⟩
    exact {
      ran := by
        rw [unplanned, Machine.allocFrame, Kernel.allocSlot, if_neg last]
        simp only [allocated]
        rfl
      leaves := ⟨duplex.congr rfl rfl rfl, Memory.grows_allocate allocated⟩
      named := (Table.get?_insert ..).trans (if_pos rfl)
      mapped := by
        intro other same
        rw [← Option.some.inj same]
        exact ⟨held, small⟩
      words := rfl
      fresh := rfl
      inside := by
        rw [Array.size_push]
        exact Nat.lt_succ_self _
      slots := Nat.le_of_eq (Machine.toNat_nextSlot_succ (Machine.room_of_slot_ne last)) }
  · refine .inr (.inr ⟨small, .tooLarge, ?_⟩)
    rw [unplanned, Machine.allocFrame, Kernel.allocSlot, if_neg last]
    simp only [Memory.allocate, if_neg small]
    rfl

theorem setPage_eq {rpc : Rpc η} {entry : Entry} (known : rpc.entries.get? t = some entry)
    (change : Entry → Entry) :
    rpc.setPage t change = { rpc with entries := rpc.entries.insert t (change entry) } := by
  simp only [setPage, Table.modify, known]

/-- Once the frame is there, the peer is asked to map it. -/
theorem preparePage_eq {σ : Type} {rpc : Rpc η} {m' : Machine} {o : σ} {frame : Cap} {view : View}
    (framed : Framed a b m rpc.pageSize frame view m') (turns : List (Turn σ)) :
    preparePage t ⟨rpc, ⟨m, o⟩, turns⟩ =
      (do
        let _ ← transact setupPage (setupRequest t rpc.pageSize frame)
        Task.modifySelf fun rpc => rpc.setPage t ({ · with nearPage := some view })
        : Task (Rpc η) σ Unit) ⟨rpc, ⟨m', o⟩, turns⟩ := by
  have allocated : Task.onMachine (·.callAllocFrame rpc.pageSize) ⟨rpc, ⟨m, o⟩, turns⟩ =
      .ok (.ok frame) ⟨rpc, ⟨m', o⟩, turns⟩ := Task.onMachine_ok framed.ran
  have mapped : m'.callMapFrame frame = (.ok view, m') := by
    simp only [Machine.callMapFrame, framed.leaves.duplex.quiet.nextFault, Kernel.mapFrame,
      framed.named]
  unfold preparePage
  rw [Task.self_bind, Task.bind_ok allocated]
  simp only [Task.request, bind_assoc, Task.asking_bind, mapped, pure_bind, Task.machine_bind,
    encode_setupRequest, Task.orPanic_ok, Task.setMachine_bind, Task.ofExcept]
  rfl

/-- A page of this many bytes takes what it is asked to. -/
theorem size_le_bytes {size : Nat} {view : View} (words : view.words = Word.countFor size) :
    (UInt64.ofNat size).toNat ≤ view.bytes := by
  have bytes : view.bytes = Word.countFor size * 8 := by rw [← words]; rfl
  have count : Word.countFor size = (size + 7) / 8 := rfl
  have small : (UInt64.ofNat size).toNat ≤ size := by
    rw [UInt64.toNat_ofNat']
    exact Nat.mod_le _ _
  omega

variable [Handler ζ τ]

theorem preparePage_framed (agreed : Agreed agreement a b w)
    (known : agreement.binding? t = some binding) {frame : Cap} {view : View}
    (framed : Framed a b w.machine w.left.pageSize frame view m) (visits : List (List Act)) :
    (∃ later m', busy later + 1 = busy visits ∧
        preparePage t (w.moment visits) = .ok () ((w.paged t view m').moment later) ∧
        Agreed agreement a b (w.paged t view m') ∧ w.machine.memory.Grows m'.memory ∧
        m'.kernel.nextSlot.toNat ≤ w.machine.kernel.nextSlot.toNat + 2) ∨
      Halted (preparePage t (w.moment visits)) ∧ ¬ (w.machine.Room 2 ∧ 0 < busy visits) := by
  have eq : preparePage t (w.moment visits) = _ := preparePage_eq framed (visits.map attend)
  have ready : Ready a b ⟨m, w.scene.others⟩ [] [] := ⟨agreed.ready.across, framed.leaves.duplex⟩
  have spent := framed.slots
  obtain ⟨entry, bound, -⟩ := Option.map_eq_some_iff.mp (agreed.right.bound t binding known)
  rcases serves_setup (ready.asked (setupRequest t w.left.pageSize frame)) agreed.right.setup
    bound framed.named (size_le_bytes framed.words) with
    ⟨scene', serves, ready', spends, others⟩ | ⟨full, silent⟩
  · have costs : setupReply.letter.cap.isSome → 0 = 1 := fun carries => by cases carries
    rcases transact_replied w.left agreed.across agreed.left.unmarked ready serves ready'
      (Message.tag_letter setupReply : _ = setupPage.responseTag) costs visits with
      ⟨idle, halted⟩ | ⟨later, m', fewer, duplex, spends', ran | ⟨full, -⟩⟩
    · refine .inr ⟨eq ▸ halted_bind halted, fun all => ?_⟩
      rw [idle] at all
      exact Nat.lt_irrefl 0 all.2
    · have set : w.right.setPage t ({ · with farPage := some view }) = _ := setPage_eq bound _
      have same : m'.memory = m.memory := spends'.memory.trans spends.memory
      have grows : w.machine.memory.Grows m'.memory := same ▸ framed.leaves.grows
      have right : scene'.others = ((w.paged t view m').right, w.rest) := by
        rw [others]
        exact congrArg (·, w.rest) set.symm
      refine .inl ⟨later, m', fewer, ?_, ?_, grows, ?_⟩
      · rw [right] at ran
        exact eq.trans ((Task.bind_ok ran).trans rfl)
      · exact agreed.paged ⟨duplex, grows⟩ known (same ▸ framed.mapped) (same ▸ framed.inside)
          framed.fresh
      · have slots : scene'.machine.kernel.nextSlot.toNat ≤ m.kernel.nextSlot.toNat + 1 :=
          spends.slots
        have slots' := spends'.slots
        have before : w.scene.machine.kernel.nextSlot = w.machine.kernel.nextSlot := rfl
        omega
    · exact absurd (Nat.le_of_lt_succ scene'.machine.kernel.nextSlot.toNat_lt) full
  · refine .inr ⟨eq ▸ halted_bind (transact_silent w.left agreed.across ready silent visits), ?_⟩
    rintro ⟨room, -⟩
    refine full (Nat.le_trans ?_ room)
    exact Nat.add_le_add_right spent 1

/-- The set-up of a page ends with a page on which both agree. It halts only if the page
cannot be addressed, no slot is left, or the other party does not dispatch. -/
theorem preparePage_cases (agreed : Agreed agreement a b w)
    (known : agreement.binding? t = some binding) (visits : List (List Act)) :
    (∃ later view m, busy later + 1 = busy visits ∧
        preparePage t (w.moment visits) = .ok () ((w.paged t view m).moment later) ∧
        Agreed agreement a b (w.paged t view m) ∧ w.machine.memory.Grows m.memory ∧
        view.words = Word.countFor w.left.pageSize ∧
        m.kernel.nextSlot.toNat ≤ w.machine.kernel.nextSlot.toNat + 2) ∨
      Halted (preparePage t (w.moment visits)) ∧
        ¬ (Word.countFor w.left.pageSize < Memory.wordLimit ∧ w.machine.Room 2 ∧
          0 < busy visits) ∨
      ¬ w.machine.Room 1 ∧
        ∃ e, preparePage t (w.moment visits) = .error (.failed e) (w.moment visits) := by
  rcases allocFrame_cases agreed.ready.duplex w.left.pageSize with
    ⟨frame, view, m, framed⟩ | ⟨full, refused⟩ | ⟨large, cause, panicked⟩
  · rcases preparePage_framed agreed known framed visits with
      ⟨later, m', fewer, ran, agreed', grows, slots⟩ | ⟨halted, never⟩
    · exact .inl ⟨later, view, m', fewer, ran, agreed', grows, framed.words, slots⟩
    · exact .inr (.inl ⟨halted, fun all => never all.2⟩)
  · refine .inr (.inr ⟨full, Error.ofChannel .noSpace, ?_⟩)
    have refused : Task.onMachine (·.callAllocFrame w.left.pageSize) (w.moment visits) =
        .ok (.error .noSpace) (w.moment visits) := Task.onMachine_ok refused
    unfold preparePage
    rw [Task.self_bind]
    exact (Task.bind_ok refused).trans rfl
  · refine .inr (.inl ⟨⟨.panicked cause, w.moment visits, ?_⟩, fun all => large all.1⟩)
    have panicked : Task.onMachine (·.callAllocFrame w.left.pageSize) (w.moment visits) =
        .error (.halted (.panicked cause)) (w.moment visits) := Task.onMachine_panic panicked
    unfold preparePage
    rw [Task.self_bind]
    exact Task.bind_error panicked

end Rpc

end Conduit

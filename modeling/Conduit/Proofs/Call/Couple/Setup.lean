/-
# How a page is set up

One party asks, and the other maps. A request to map a page goes through one queue, is served,
and its reply comes back through the other queue. No two of these are under way at a time, and
while one is, the asker has no page for that type; so the page that the mapper records is the one
that the asker is going to record (`SetUp`). That holds as long as the asker remembers that a
reply is owed. If it forgets, then because no slot was left for a capability, and so it cannot
have a frame for another page either.

The mapper drops the page if a binding is registered in place of the one that has it
(`Party.after`). The asker does not learn of that.
-/

import Conduit.Proofs.Call.Couple.Channel

namespace Conduit.Rpc

variable {η ζ : Type}

/-- One of two parties, and what it has in hand. -/
structure Party (η : Type) where
  /-- What it has in hand. -/
  phase : Phase
  /-- Its state. -/
  rpc : Rpc η
  /-- The types whose page of the peer it dropped. -/
  dropped : MessageType → Prop

namespace Party

/-- The page of the peer for the calls of a type is this one, or it was dropped. -/
def Shares (q : Party ζ) (t : MessageType) (page : View) : Prop :=
  q.rpc.page? t .far = some page ∨ (q.rpc.page? t .far = none ∧ q.dropped t)

/-- The party after a step. The page of the peer is dropped if a binding is registered in place
of the one that has it. -/
def after (p : Party η) (phase : Phase) (rpc : Rpc η) : Party η where
  phase := phase
  rpc := rpc
  dropped t := p.dropped t ∨
    ((p.rpc.page? t .far).isSome ∧ ∃ binding : Binding, binding.type = t ∧
      p.rpc.register binding = .ok rpc)

/-- A page was asked for, or its reply is owed. -/
def Owing (p : Party η) : Prop :=
  (∃ t page, p.phase = .asking t page) ∨ p.rpc.awaiting = some setupPage

end Party

/-- How many requests to map a page are being served: one or none. -/
def Phase.mapping : Phase → Nat
  | serving message => if message.tag = setupPage.code then 1 else 0
  | mapped _ _ => 1
  | _ => 0

/-- How many replies to such a request are in hand: one or none. -/
def Phase.holding : Phase → Nat
  | serving message => if message.tag = setupPage.responseTag then 1 else 0
  | granted _ _ => 1
  | _ => 0

/-- How many requests to map a page wait. -/
def requests (queue : List Message) : Nat :=
  queue.countP fun message => message.tag = setupPage.code

/-- How many replies to such a request wait. -/
def replies (queue : List Message) : Nat :=
  queue.countP fun message => message.tag = setupPage.responseTag

/-- The message waits for the party, or it is being served. -/
def Pending (q : Party ζ) (queue : List Message) (message : Message) : Prop :=
  message ∈ queue ∨ q.phase = .serving message

/-- The pages that one party has the other map, with the messages that wait for either. -/
structure SetUp (p : Party η) (q : Party ζ) (m : Machine) (toP toQ : List Message) : Prop where
  /-- At most one is under way. -/
  one : requests toQ + q.phase.mapping + replies toP + p.phase.holding ≤ 1
  /-- As long as its reply has not come, it is owed. -/
  owed : 0 < requests toQ + q.phase.mapping + replies toP →
    p.Owing ∨ (m.Exhausted ∧ ∀ t frame page, p.phase ≠ .prepared t frame page)
  spoiled : p.phase = .spoiled → m.Exhausted
  prepared : ∀ t frame page, p.phase = .prepared t frame page →
    m.kernel.frames.get? frame = some page
  /-- A request asks for a page that the asker does not have yet. -/
  request : ∀ message t frame, Pending q toQ message → Asks message t frame →
    ∃ page, m.kernel.frames.get? frame = some page ∧ p.rpc.page? t .near = none ∧
      ∀ t' page', p.phase = .asking t' page' → t' = t ∧ page' = page
  mapped : ∀ t page, q.phase = .mapped t page → q.Shares t page ∧
    ∀ t' page', p.phase = .asking t' page' → t' = t ∧ page' = page
  reply : 0 < replies toP → ∀ t page, p.phase = .asking t page → q.Shares t page
  granted : ∀ t page, p.phase = .granted t page → q.Shares t page
  /-- The pages of the two parties agree. -/
  agree : ∀ t page, p.rpc.page? t .near = some page → q.Shares t page

/-! ### Tags -/

/-- The calls that a party makes at one end: it sets up pages only as a party does, and gives
no other endpoint to its peer. -/
structure Genuine (home : Cap) (t : MessageType) (args : List Value) : Prop where
  notSetup : t ≠ setupPage
  asked : MessageType.isResponse t.code = false
  introduces : t = initiate → args = [.cap home]

theorem tag_ne_of_asked {message : Message} {t : MessageType}
    (asked : MessageType.isResponse message.tag = false) : message.tag ≠ t.responseTag := by
  intro same
  rw [same, MessageType.isResponse_responseTag] at asked
  cases asked

theorem ne_of_responds {message : Message} {t : MessageType} {tag : UInt64}
    (responds : message.tag = t.responseTag) (asked : MessageType.isResponse tag = false) :
    message.tag ≠ tag := by
  intro same
  rw [← same, responds, MessageType.isResponse_responseTag] at asked
  cases asked

theorem tag_echo (message : Message) : message.letter.message.tag = message.tag :=
  message.tag_letter

section Counts

variable {queue : List Message} {message : Message}

@[simp]
theorem requests_cons : requests (message :: queue) =
    requests queue + if message.tag = setupPage.code then 1 else 0 := by
  unfold requests
  rw [List.countP_cons]
  simp

@[simp]
theorem replies_cons : replies (message :: queue) =
    replies queue + if message.tag = setupPage.responseTag then 1 else 0 := by
  unfold replies
  rw [List.countP_cons]
  simp

@[simp]
theorem requests_concat : requests (queue ++ [message]) =
    requests queue + if message.tag = setupPage.code then 1 else 0 := by
  simp [requests, List.countP_append, List.countP_cons]

@[simp]
theorem replies_concat : replies (queue ++ [message]) =
    replies queue + if message.tag = setupPage.responseTag then 1 else 0 := by
  simp [replies, List.countP_append, List.countP_cons]

/-- A request that is pending is counted. -/
theorem Pending.counted {q : Party ζ} (pending : Pending q queue message)
    (tagged : message.tag = setupPage.code) : 0 < requests queue + q.phase.mapping := by
  rcases pending with waits | served
  · have counted : 0 < requests queue :=
      List.countP_pos_iff.mpr ⟨message, waits, decide_eq_true tagged⟩
    omega
  · have counted : q.phase.mapping = 1 := by
      rw [served, Phase.mapping, if_pos tagged]
    omega

end Counts

/-! ### Where nothing comes about -/

/-- The asker has no more in hand than before, and owes no less. -/
structure Party.Fades (p p' : Party η) : Prop where
  near : ∀ t page, p'.rpc.page? t .near = some page → p.rpc.page? t .near = some page
  asking : ∀ t page, p'.phase = .asking t page → p.phase = .asking t page
  prepared : ∀ t frame page, p'.phase = .prepared t frame page → p.phase = .prepared t frame page
  granted : ∀ t page, p'.phase = .granted t page → p.phase = .granted t page
  spoiled : p'.phase = .spoiled → p.phase = .spoiled
  owing : p.Owing → p'.Owing

theorem Party.Fades.of_eq {p p' : Party η} (phase : p'.phase = p.phase)
    (near : ∀ t page, p'.rpc.page? t .near = some page → p.rpc.page? t .near = some page)
    (awaiting : p'.rpc.awaiting = p.rpc.awaiting) : p.Fades p' := by
  refine ⟨near, ?_, ?_, ?_, ?_, ?_⟩
  · exact fun t page same => phase ▸ same
  · exact fun t frame page same => phase ▸ same
  · exact fun t page same => phase ▸ same
  · exact fun same => phase ▸ same
  · intro owing
    unfold Owing at owing ⊢
    rwa [phase, awaiting]

/-- What is put down is put down. -/
theorem Party.Fades.of_idle {p p' : Party η}
    (idle : p'.phase = .free ∨ (∃ message, p'.phase = .serving message) ∨
      ∃ t page, p'.phase = .mapped t page)
    (near : ∀ t page, p'.rpc.page? t .near = some page → p.rpc.page? t .near = some page)
    (owing : p.Owing → p'.rpc.awaiting = some setupPage) : p.Fades p' := by
  refine ⟨near, ?_, ?_, ?_, ?_, fun owed => .inr (owing owed)⟩
  all_goals
    intros
    rcases idle with idle | ⟨message, idle⟩ | ⟨t, page, idle⟩
    all_goals simp_all

/-- The mapper has the pages that it had, and maps no other. -/
structure Party.Keeps (q q' : Party ζ) : Prop where
  shares : ∀ t page, q.Shares t page → q'.Shares t page
  mapped : ∀ t page, q'.phase = .mapped t page → q.phase = .mapped t page

variable {p p' : Party η} {q q' : Party ζ} {m m' : Machine} {toP toQ toP' toQ' : List Message}
  {message : Message}

namespace SetUp

/-- Nothing is asked for or recorded. -/
theorem fade (setUp : SetUp p q m toP toQ) (onward : m.Onward m') (fades : p.Fades p')
    (keeps : q.Keeps q') (asked : requests toQ' + q'.phase.mapping ≤ requests toQ + q.phase.mapping)
    (came : replies toP' ≤ replies toP)
    (held : replies toP' + p'.phase.holding ≤ replies toP + p.phase.holding)
    (known : ∀ message, message.tag = setupPage.code → Pending q' toQ' message →
      Pending q toQ message) : SetUp p' q' m' toP' toQ' where
  one := by
    have one := setUp.one
    omega
  owed some := by
    rcases setUp.owed (by omega) with owing | ⟨exhausted, unprepared⟩
    · exact .inl (fades.owing owing)
    · exact .inr ⟨onward.exhausted exhausted, fun t frame page same =>
        unprepared t frame page (fades.prepared t frame page same)⟩
  spoiled same := onward.exhausted (setUp.spoiled (fades.spoiled same))
  prepared t frame page same :=
    onward.frames frame page (setUp.prepared t frame page (fades.prepared t frame page same))
  request message t frame pending asks := by
    obtain ⟨page, shown, none, only⟩ :=
      setUp.request message t frame (known message asks.tagged pending) asks
    refine ⟨page, onward.frames frame page shown, ?_, fun t' page' same =>
      only t' page' (fades.asking t' page' same)⟩
    cases there : p'.rpc.page? t .near with
    | none => rfl
    | some other => rw [fades.near t other there] at none; cases none
  mapped t page same := by
    obtain ⟨shares, only⟩ := setUp.mapped t page (keeps.mapped t page same)
    exact ⟨keeps.shares t page shares, fun t' page' asking =>
      only t' page' (fades.asking t' page' asking)⟩
  reply some t page same :=
    keeps.shares t page (setUp.reply (by omega) t page (fades.asking t page same))
  granted t page same := keeps.shares t page (setUp.granted t page (fades.granted t page same))
  agree t page same := keeps.shares t page (setUp.agree t page (fades.near t page same))

/-! ### The asker -/

/-- Nothing is under way: there is no request that could be served. -/
theorem not_pending (none : requests toQ + q.phase.mapping = 0) {message : Message}
    (pending : Pending q toQ message) : message.tag ≠ setupPage.code := fun tagged =>
  absurd (pending.counted tagged) (by omega)

/-- Nothing is under way: no page was mapped just now. -/
theorem not_mapped (none : requests toQ + q.phase.mapping = 0) (t : MessageType) (page : View) :
    q.phase ≠ .mapped t page := by
  intro same
  rw [same, Phase.mapping] at none
  omega

/-- A request is sent: none is under way, since nothing is owed. -/
theorem sends (setUp : SetUp p q m toP toQ) (onward : m.Onward m') {t : MessageType} {size : Nat}
    {frame : Cap} {page : View} (inHand : p.phase = .prepared t frame page)
    (unmarked : p.rpc.awaiting = none) (missing : p.rpc.page? t .near = none)
    (phase : p'.phase = .asking t page)
    (near : ∀ t, p'.rpc.page? t .near = p.rpc.page? t .near) :
    SetUp p' q m' toP (toQ ++ [(setupRequest t size frame).letter.message]) := by
  have none : requests toQ + q.phase.mapping + replies toP = 0 := by
    by_contra some
    rcases setUp.owed (by omega) with (⟨t', page', same⟩ | owed) | ⟨-, unprepared⟩
    · cases inHand.symm.trans same
    · cases unmarked.symm.trans owed
    · exact unprepared t frame page inHand
  have unasked : requests toQ + q.phase.mapping = 0 := by omega
  have held : p'.phase.holding = 0 := by
    rw [phase]
    rfl
  have asked : (setupRequest t size frame).tag = setupPage.code := rfl
  rw [whole_setupRequest]
  constructor
  case one =>
    rw [requests_concat, if_pos asked]
    omega
  case owed => exact fun _ => .inl (.inl ⟨t, page, phase⟩)
  case spoiled =>
    intro same
    cases phase.symm.trans same
  case prepared =>
    intro t' frame' page' same
    cases phase.symm.trans same
  case request =>
    intro message t' frame' pending asks
    have here : message = setupRequest t size frame := by
      rcases pending with waits | served
      · rcases List.mem_append.mp waits with old | new
        · exact absurd asks.tagged (not_pending unasked (.inl old))
        · exact List.mem_singleton.mp new
      · exact absurd asks.tagged (not_pending unasked (.inr served))
    subst here
    have type : t = t' := by
      have named : some t.code = some t'.code := asks.named
      exact congrArg MessageType.mk (Option.some.inj named)
    have slot : frame = frame' := Option.some.inj asks.carried
    subst type slot
    refine ⟨page, onward.frames frame page (setUp.prepared t frame page inHand), ?_, ?_⟩
    · rw [near, missing]
    · intro t' page' same
      cases phase.symm.trans same
      exact ⟨rfl, rfl⟩
  case mapped => exact fun t' page' same => absurd same (not_mapped unasked t' page')
  case reply =>
    intro some
    omega
  case granted =>
    intro t' page' same
    cases phase.symm.trans same
  case agree =>
    intro t' page' same
    rw [near] at same
    exact setUp.agree t' page' same

/-- The reply has come: the mapper has the page. -/
theorem grants (setUp : SetUp p q m (message :: toP') toQ) {t : MessageType} {page : View}
    (inHand : p.phase = .asking t page)
    (tagged : message.tag = setupPage.responseTag) (phase : p'.phase = .granted t page)
    (near : ∀ t, p'.rpc.page? t .near = p.rpc.page? t .near) : SetUp p' q m' toP' toQ := by
  have one := setUp.one
  rw [replies_cons, if_pos tagged] at one
  have none : requests toQ + q.phase.mapping + replies toP' = 0 := by omega
  have unasked : requests toQ + q.phase.mapping = 0 := by omega
  have held : p'.phase.holding = 1 := by
    rw [phase]
    rfl
  constructor
  case one => omega
  case owed =>
    intro some
    omega
  case spoiled =>
    intro same
    cases phase.symm.trans same
  case prepared =>
    intro t' frame' page' same
    cases phase.symm.trans same
  case request =>
    intro message t' frame' pending asks
    exact absurd asks.tagged (not_pending unasked pending)
  case mapped => exact fun t' page' same => absurd same (not_mapped unasked t' page')
  case reply =>
    intro some
    omega
  case granted =>
    intro t' page' same
    cases phase.symm.trans same
    exact setUp.reply (by rw [replies_cons, if_pos tagged]; omega) t page inHand
  case agree =>
    intro t' page' same
    rw [near] at same
    exact setUp.agree t' page' same

/-- Where a mark is taken away while something is under way, no slot is left. -/
theorem cleared (setUp : SetUp p q m toP toQ) {calls : MessageType → List Value → Prop}
    (genuine : ∀ t args, calls t args → t ≠ setupPage) (clears : Clears calls p.rpc p.phase)
    (some : 0 < requests toQ + q.phase.mapping + replies toP) :
    m.Exhausted ∧ ∀ t frame page, p.phase ≠ .prepared t frame page := by
  have one := setUp.one
  generalize inHand : p.phase = before at clears
  cases clears with
  | granted t page =>
      rw [inHand, Phase.holding] at one
      omega
  | spoiled => exact ⟨setUp.spoiled inHand, fun _ _ _ same => by cases same⟩
  | @returned t args owed made =>
      rcases setUp.owed some with (⟨t', page', same⟩ | owed') | exhausted
      · cases inHand.symm.trans same
      · cases owed.symm.trans owed'
        exact absurd rfl (genuine _ _ made)
      · exact inHand ▸ exhausted
  | @late message owed =>
      rcases setUp.owed some with (⟨t', page', same⟩ | owed') | exhausted
      · cases inHand.symm.trans same
      · rw [owed', Option.map_some, Option.some.injEq] at owed
        rw [inHand, Phase.holding, if_pos owed.symm] at one
        omega
      · exact inHand ▸ exhausted

/-- Nothing is owed any more: nothing is under way, or no slot is left. -/
theorem forgets (setUp : SetUp p q m toP toQ) {calls : MessageType → List Value → Prop}
    (genuine : ∀ t args, calls t args → t ≠ setupPage) (clears : Clears calls p.rpc p.phase)
    (phase : p'.phase = p.phase) (near : ∀ t, p'.rpc.page? t .near = p.rpc.page? t .near) :
    SetUp p' q m toP toQ := by
  constructor
  case one =>
    rw [phase]
    exact setUp.one
  case owed =>
    intro some
    rw [phase]
    exact .inr (setUp.cleared genuine clears some)
  case spoiled =>
    rw [phase]
    exact setUp.spoiled
  case prepared =>
    rw [phase]
    exact setUp.prepared
  case request =>
    simp only [phase, near]
    exact setUp.request
  case mapped =>
    simp only [phase]
    exact setUp.mapped
  case reply =>
    simp only [phase]
    exact setUp.reply
  case granted =>
    simp only [phase]
    exact setUp.granted
  case agree =>
    simp only [near]
    exact setUp.agree

/-- The page is recorded that the mapper has. -/
theorem records (setUp : SetUp p q m toP toQ) {t : MessageType} {page : View}
    (inHand : p.phase = .granted t page) (phase : p'.phase = .free)
    (near : ∀ t' page', p'.rpc.page? t' .near = some page' →
      (t' = t ∧ page' = page) ∨ p.rpc.page? t' .near = some page') :
    SetUp p' q m toP toQ := by
  have one := setUp.one
  have held : p.phase.holding = 1 := by
    rw [inHand]
    rfl
  have held' : p'.phase.holding = 0 := by
    rw [phase]
    rfl
  have unasked : requests toQ + q.phase.mapping = 0 := by omega
  constructor
  case one => omega
  case owed =>
    intro some
    omega
  case spoiled =>
    intro same
    cases phase.symm.trans same
  case prepared =>
    intro t' frame' page' same
    cases phase.symm.trans same
  case request =>
    intro message t' frame' pending asks
    exact absurd asks.tagged (not_pending unasked pending)
  case mapped => exact fun t' page' same => absurd same (not_mapped unasked t' page')
  case reply =>
    intro some
    omega
  case granted =>
    intro t' page' same
    cases phase.symm.trans same
  case agree =>
    intro t' page' same
    rcases near t' page' same with ⟨rfl, rfl⟩ | same
    · exact setUp.granted t' page' inHand
    · exact setUp.agree t' page' same

/-- What was in hand is lost, since no slot is left. -/
theorem spoils (setUp : SetUp p q m toP toQ) (onward : m.Onward m') (exhausted : m.Exhausted)
    (phase : p'.phase = .spoiled) (near : ∀ t, p'.rpc.page? t .near = p.rpc.page? t .near) :
    SetUp p' q m' toP toQ := by
  have one := setUp.one
  have held : p'.phase.holding = 0 := by
    rw [phase]
    rfl
  constructor
  case one => omega
  case owed =>
    intro some
    exact .inr ⟨onward.exhausted exhausted, fun t frame page same => by cases phase.symm.trans same⟩
  case spoiled => exact fun _ => onward.exhausted exhausted
  case prepared =>
    intro t' frame' page' same
    cases phase.symm.trans same
  case request =>
    intro message t' frame' pending asks
    obtain ⟨page, shown, none, -⟩ := setUp.request message t' frame' pending asks
    refine ⟨page, onward.frames _ _ shown, by rw [near, none], fun t' page' same => ?_⟩
    cases phase.symm.trans same
  case mapped =>
    intro t' page' same
    refine ⟨(setUp.mapped t' page' same).1, fun t' page' same => ?_⟩
    cases phase.symm.trans same
  case reply =>
    intro some t' page' same
    cases phase.symm.trans same
  case granted =>
    intro t' page' same
    cases phase.symm.trans same
  case agree =>
    simp only [near]
    exact setUp.agree

/-- A page is in hand, so slots were left. -/
theorem prepares (setUp : SetUp p q m toP toQ) (onward : m.Onward m') {t : MessageType}
    {frame : Cap} {page : View} (idle : p.phase = .free) (left : ¬ m.Exhausted)
    (shown : m'.kernel.frames.get? frame = some page) (phase : p'.phase = .prepared t frame page)
    (awaiting : p'.rpc.awaiting = p.rpc.awaiting)
    (near : ∀ t, p'.rpc.page? t .near = p.rpc.page? t .near) : SetUp p' q m' toP toQ := by
  have one := setUp.one
  have held : p'.phase.holding = 0 := by
    rw [phase]
    rfl
  constructor
  case one => omega
  case owed =>
    intro some
    rcases setUp.owed some with (⟨t', page', same⟩ | owed) | ⟨exhausted, -⟩
    · cases idle.symm.trans same
    · exact .inl (.inr (awaiting.trans owed))
    · exact absurd exhausted left
  case spoiled =>
    intro same
    cases phase.symm.trans same
  case prepared =>
    intro t' frame' page' same
    cases phase.symm.trans same
    exact shown
  case request =>
    intro message t' frame' pending asks
    obtain ⟨page, shown, none, -⟩ := setUp.request message t' frame' pending asks
    refine ⟨page, onward.frames _ _ shown, by rw [near, none], fun t' page' same => ?_⟩
    cases phase.symm.trans same
  case mapped =>
    intro t' page' same
    refine ⟨(setUp.mapped t' page' same).1, fun t' page' same => ?_⟩
    cases phase.symm.trans same
  case reply =>
    intro some t' page' same
    cases phase.symm.trans same
  case granted =>
    intro t' page' same
    cases phase.symm.trans same
  case agree =>
    simp only [near]
    exact setUp.agree

/-! ### The mapper -/

/-- The page that the asker is going to record is mapped. -/
theorem maps (setUp : SetUp p q m toP toQ) {request : Message} {t : MessageType} {frame : Cap}
    {page : View} (inHand : q.phase = .serving request) (asks : Asks request t frame)
    (shown : m.kernel.frames.get? frame = some page) (phase : q'.phase = .mapped t page)
    (far : q'.rpc.page? t .far = some page)
    (others : ∀ t' page', t ≠ t' → q.Shares t' page' → q'.Shares t' page') :
    SetUp p q' m toP toQ := by
  have one := setUp.one
  obtain ⟨page', shown', missing, only⟩ := setUp.request request t frame (.inr inHand) asks
  cases shown.symm.trans shown'
  have mapping : q.phase.mapping = 1 := by
    rw [inHand, Phase.mapping, if_pos asks.tagged]
  have mapping' : q'.phase.mapping = 1 := by
    rw [phase]
    rfl
  constructor
  case one => omega
  case owed =>
    intro some
    exact setUp.owed (by omega)
  case spoiled => exact setUp.spoiled
  case prepared => exact setUp.prepared
  case request =>
    intro message t' frame' pending asks'
    rcases pending with waits | served
    · have counted : 0 < requests toQ :=
        List.countP_pos_iff.mpr ⟨message, waits, decide_eq_true asks'.tagged⟩
      omega
    · cases phase.symm.trans served
  case mapped =>
    intro t' page' same
    cases phase.symm.trans same
    exact ⟨.inl far, only⟩
  case reply =>
    intro some
    omega
  case granted =>
    intro t' page' same
    rw [same, Phase.holding] at one
    omega
  case agree =>
    intro t' page' same
    have apart : t ≠ t' := by
      rintro rfl
      cases missing.symm.trans same
    exact others t' page' apart (setUp.agree t' page' same)

/-- The asker is told that the page is mapped. -/
theorem confirms (setUp : SetUp p q m toP toQ) (onward : m.Onward m') {t : MessageType}
    {page : View} (inHand : q.phase = .mapped t page) (tagged : message.tag = setupPage.responseTag)
    (phase : q'.phase = .free) (shares : ∀ t page, q.Shares t page → q'.Shares t page) :
    SetUp p q' m' (toP ++ [message]) toQ := by
  have one := setUp.one
  have mapping : q.phase.mapping = 1 := by
    rw [inHand]
    rfl
  have mapping' : q'.phase.mapping = 0 := by
    rw [phase]
    rfl
  constructor
  case one =>
    rw [replies_concat, if_pos tagged]
    omega
  case owed =>
    intro some
    rcases setUp.owed (by omega) with owing | ⟨exhausted, unprepared⟩
    · exact .inl owing
    · exact .inr ⟨onward.exhausted exhausted, unprepared⟩
  case spoiled => exact fun same => onward.exhausted (setUp.spoiled same)
  case prepared =>
    exact fun t frame page same => onward.frames _ _ (setUp.prepared t frame page same)
  case request =>
    intro message t' frame' pending asks
    rcases pending with waits | served
    · have counted : 0 < requests toQ :=
        List.countP_pos_iff.mpr ⟨message, waits, decide_eq_true asks.tagged⟩
      omega
    · cases phase.symm.trans served
  case mapped =>
    intro t' page' same
    cases phase.symm.trans same
  case reply =>
    intro some t' page' same
    obtain ⟨shared, only⟩ := setUp.mapped t page inHand
    obtain ⟨rfl, rfl⟩ := only t' page' same
    exact shares _ _ shared
  case granted => exact fun t' page' same => shares _ _ (setUp.granted t' page' same)
  case agree => exact fun t' page' same => shares _ _ (setUp.agree t' page' same)

end SetUp

end Conduit.Rpc

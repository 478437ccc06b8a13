/-
# Pages and panes that are there

Where a party works, its pages, those in its hand and all frames lie inside their blocks,
and a channel over shared memory lies between panes that do (`Sound`). No step of the party
takes that away, whatever messages it reads (`Sound.deal`), and the others may do anything
to the machine that loses no memory (`Sustains`). So it holds wherever a party gets
(`Sound.course`).
-/

import Conduit.Proofs.Call.Conduct.Operations
import Conduit.Proofs.Kernel.Steady
import Conduit.Proofs.Slots.Panes

namespace Conduit.Rpc

variable {η σ α : Type}

/-- All frames lie inside their blocks. -/
def Backed (m : Machine) : Prop := ∀ frame, Mapped m.memory (m.kernel.frames.get? frame)

theorem Backed.mapFrame {m : Machine} {frame : Cap} {page : View} (backed : Backed m)
    (shown : m.kernel.mapFrame frame = .ok page) : Mapped m.memory (some page) := by
  have mapped := backed frame
  unfold Kernel.mapFrame at shown
  cases named : m.kernel.frames.get? frame with
  | none => simp [named] at shown
  | some view =>
      simp only [named, Except.ok.injEq] at shown
      rw [named, shown] at mapped
      exact mapped

/-- No memory is lost, and new frames lie inside their blocks too. -/
structure Sustains (m m' : Machine) : Prop where
  grows : m.memory.Grows m'.memory
  backed : Backed m → Backed m'

namespace Sustains

variable {m m' : Machine}

theorem refl (m : Machine) : Sustains m m := ⟨.refl _, id⟩

theorem of_grows (grows : m.memory.Grows m'.memory) (frames : m'.kernel.frames = m.kernel.frames) :
    Sustains m m' := by
  refine ⟨grows, fun backed frame => ?_⟩
  rw [frames]
  exact (backed frame).grows grows

theorem of_steady (steady : m.Steady m') : Sustains m m' :=
  of_grows (steady.memory ▸ .refl _) steady.frames

theorem callAllocFrame {bytes : Nat} {answer : Except ChannelError Cap}
    (ran : m.callAllocFrame bytes = .ok (answer, m')) : Sustains m m' := by
  obtain ⟨-, ⟨e, -, same⟩ | ⟨view, memory, -, -, allocated, same⟩⟩ :=
    Machine.callAllocFrame_effect ran
  · rw [same]
    exact of_grows (.refl _) rfl
  · have grows := Memory.grows_allocate allocated
    obtain ⟨shape, held, -⟩ := Memory.allocate_ok allocated
    have small : view.words < Memory.wordLimit := by
      rw [shape]
      by_contra large
      simp only [Memory.allocate, if_neg large] at allocated
      cases allocated
    rw [same]
    refine ⟨grows, fun backed frame => ?_⟩
    simp only [Table.get?_insert]
    split
    · intro found known
      cases known
      exact ⟨held, small⟩
    · exact (backed frame).grows grows

end Sustains

/-- The page that a party has in hand. -/
def Phase.page? : Phase → Option View
  | prepared _ _ page => some page
  | asking _ page => some page
  | granted _ page => some page
  | mapped _ page => some page
  | free => none
  | serving _ => none
  | spoiled => none

/-- All pages lie inside their blocks, and so do the panes of a channel. -/
structure Sound (s : Seat η) : Prop where
  pages : ∀ t side, Mapped s.machine.memory (s.rpc.page? t side)
  inHand : Mapped s.machine.memory s.phase.page?
  backed : Backed s.machine
  panes : ∀ chan, s.rpc.transport = .slots chan → chan.Fitted s.machine.memory

theorem mapped_none (m : Memory) : Mapped m none := fun _ known => by cases known

namespace Sound

variable {s s' : Seat η}

/-- A party begins without pages and with nothing in hand. -/
theorem of_bare {rpc : Rpc η} {m : Machine} (bare : ∀ t side, rpc.page? t side = none)
    (backed : Backed m) (panes : ∀ chan, rpc.transport = .slots chan → chan.Fitted m.memory) :
    Sound ⟨.free, rpc, m⟩ where
  pages t side := by
    simp only [bare t side]
    exact mapped_none _
  inHand := mapped_none _
  backed := backed
  panes := panes

/-- The machine may change in any way that loses no memory. -/
theorem sustain (sound : Sound s) {m : Machine} (sustains : Sustains s.machine m) :
    Sound { s with machine := m } where
  pages t side := (sound.pages t side).grows sustains.grows
  inHand := sound.inHand.grows sustains.grows
  backed := sustains.backed sound.backed
  panes chan across := (sound.panes chan across).grows sustains.grows

/-- What is in hand may be put down. -/
theorem drop (sound : Sound s) {phase : Phase} (none : phase.page? = none) :
    Sound { s with phase } :=
  { sound with inHand := by rw [none]; exact mapped_none _ }

/-- A page may go from hand to hand. -/
theorem pass (sound : Sound s) {phase : Phase} (same : phase.page? = s.phase.page?) :
    Sound { s with phase } :=
  { sound with inHand := by rw [same]; exact sound.inHand }

/-- The entry of one message type may change, if its pages lie inside their blocks. -/
theorem record (sound : Sound s) {entries : Table MessageType Entry} {t : MessageType}
    {entry : Entry} (others : ∀ t', t ≠ t' → entries.get? t' = s.rpc.entries.get? t')
    (there : entries.get? t = some entry)
    (pages : ∀ side, Mapped s.machine.memory (entry.page side)) :
    Sound { s with rpc := { s.rpc with entries } } := by
  refine { sound with pages := fun t' side => ?_ }
  by_cases same : t = t'
  · subst same
    simp only [page?, there]
    exact pages side
  · have kept := sound.pages t' side
    unfold page? at kept ⊢
    rwa [others t' same]

variable {calls : MessageType → List Value → Prop} {notices : Prop} {events : List Event}

theorem posts (sound : Sound s) {message : Message} {transport : Transport} {m : Machine}
    (posts : Transport.Posts message s.rpc.transport s.machine transport m) :
    Sound { s with rpc := { s.rpc with transport }, machine := m } := by
  generalize across : s.rpc.transport = before at posts
  cases posts with
  | endpoint sent =>
      have kept := sound.sustain (.of_steady (Endpoint.steady_send sent))
      exact { kept with panes := fun chan same => by cases same }
  | @slots chan _ _ _ capless filled =>
      have fitted := sound.panes chan across
      obtain ⟨answer, never, refused⟩ | sent := fitted.send message.words
      · cases refused.symm.trans filled
        exact absurd rfl never
      · cases sent.symm.trans filled
        have kept := sound.sustain (m := (chan.afterSend message.words s.machine).2)
          (.of_grows (Lane.grows_fill _ _ _) rfl)
        refine { kept with panes := fun chan' same => ?_ }
        cases same
        exact fitted.afterSend message.words

theorem draws (sound : Sound s) {message : Message} {transport : Transport} {m : Machine}
    (draws : Transport.Draws message s.rpc.transport s.machine transport m) :
    Sound { s with rpc := { s.rpc with transport }, machine := m } := by
  generalize across : s.rpc.transport = before at draws
  cases draws with
  | endpoint received =>
      have kept := sound.sustain (.of_steady (Endpoint.steady_recv received))
      exact { kept with panes := fun chan same => by cases same }
  | @slots chan _ _ _ _ emptied =>
      have fitted := sound.panes chan across
      obtain none | ⟨words, received⟩ := fitted.receive chan.payloadWords
      · cases none.symm.trans emptied
      · cases received.symm.trans emptied
        have kept := sound.sustain (m := (chan.afterReceive s.machine).2)
          (.of_grows (Lane.grows_release _ _) rfl)
        refine { kept with panes := fun chan' same => ?_ }
        cases same
        exact fitted.afterReceive

theorem noticed (sound : Sound s) {transport : Transport} {m : Machine}
    (noticed : Transport.Notices s.rpc.transport s.machine transport m) :
    Sound { s with rpc := { s.rpc with transport }, machine := m } := by
  generalize across : s.rpc.transport = before at noticed
  cases noticed with
  | event => exact { sound with panes := fun chan same => by cases same }
  | armed granted =>
      have kept := sound.sustain (.of_steady (Endpoint.steady_register granted))
      exact { kept with panes := fun chan same => by cases same }
  | unarmed refused =>
      have kept := sound.sustain (.of_steady (Endpoint.steady_register refused))
      exact { kept with panes := fun chan same => by cases same }
  | @bell chan _ _ _ taken =>
      have fitted := sound.panes chan across
      obtain ⟨rung, bells, took⟩ := fitted.takeNotification
      cases took.symm.trans taken
      have kept := sound.sustain (m := { s.machine with bells }) (.of_grows (.refl _) rfl)
      refine { kept with panes := fun chan' same => ?_ }
      cases same
      exact fitted

/-- The page that the peer has mapped was in hand. -/
theorem near (sound : Sound s) {t : MessageType} {page : View}
    (granted : s.phase = .granted t page) :
    Sound { s with
      phase := .free
      rpc := { s.rpc with
        entries := s.rpc.entries.modify t ({ · with nearPage := some page }) } } := by
  have here := sound.inHand
  rw [granted] at here
  have kept : Sound { s with phase := .free } := sound.drop rfl
  cases known : s.rpc.entries.get? t with
  | none =>
      have same : s.rpc.entries.modify t ({ · with nearPage := some page }) = s.rpc.entries := by
        unfold Table.modify
        rw [known]
      rw [same]
      exact kept
  | some entry =>
      have pages : ∀ side, Mapped s.machine.memory
          (({ entry with nearPage := some page } : Entry).page side) := by
        rintro (_ | _)
        · exact here
        · have far := sound.pages t .far
          rwa [page?, known] at far
      refine kept.record (t := t) ?_ ?_ pages
      · intro t' other
        rw [Table.get?_modify, if_neg other]
      · rw [Table.get?_modify, if_pos rfl, known]
        rfl

/-- The page of the peer is one that the kernel knows. -/
theorem far (sound : Sound s) {t : MessageType} {frame : Cap} {page : View} {entry : Entry}
    (shown : s.machine.kernel.mapFrame frame = .ok page)
    (known : s.rpc.entries.get? t = some entry) : Sound { s with
      phase := .mapped t page
      rpc := { s.rpc with
        entries := s.rpc.entries.insert t { entry with farPage := some page } } } := by
  have here := sound.backed.mapFrame shown
  have kept : Sound { s with phase := .mapped t page } := { sound with inHand := here }
  have pages : ∀ side, Mapped s.machine.memory
      (({ entry with farPage := some page } : Entry).page side) := by
    rintro (_ | _)
    · have near := sound.pages t .near
      rwa [page?, known] at near
    · exact here
  refine kept.record (t := t) ?_ ?_ pages
  · intro t' other
    rw [Table.get?_insert, if_neg other]
  · rw [Table.get?_insert, if_pos rfl]

/-- A binding that is registered has no page. -/
theorem register (sound : Sound s) {b : Binding} {rpc : Rpc η}
    (registered : s.rpc.register b = .ok rpc) : Sound { s with rpc } := by
  have pages : ∀ t side, Mapped s.machine.memory (rpc.page? t side) := by
    intro t side
    rw [page?_register registered]
    split
    · exact mapped_none _
    · exact sound.pages t side
  obtain ⟨-, rfl⟩ := of_register registered
  exact { sound with pages }

/-- A step of the party loses nothing. -/
theorem deal (sound : Sound s) (deal : Deal calls notices s events s') : Sound s' := by
  cases deal with
  | send posts reason =>
      have kept := sound.posts posts
      generalize inHand : s.phase = before at reason
      cases reason with
      | ask => exact kept.pass (inHand ▸ rfl)
      | request => exact kept.drop rfl
      | reply => exact kept.drop rfl
      | confirm => exact kept.drop rfl
  | unsent across refused => exact sound.sustain (.of_steady (Endpoint.steady_send refused))
  | take draws picks =>
      have kept := sound.draws draws
      generalize inHand : s.phase = before at picks
      cases picks with
      | reply => exact kept.drop rfl
      | granted => exact kept.pass (inHand ▸ rfl)
      | foreign => exact kept.pass (inHand ▸ rfl)
      | serve => exact kept.drop rfl
  | vain across refused => exact sound.sustain (.of_steady (Endpoint.steady_recv refused))
  | barred across refused =>
      exact (sound.sustain (.of_steady (Endpoint.steady_recv refused))).drop rfl
  | slot across granted => exact sound.sustain (.of_steady (Endpoint.steady_allocRecvSlot granted))
  | slotless across refused =>
      exact (sound.sustain (.of_steady (Endpoint.steady_allocRecvSlot refused))).drop rfl
  | @write t tag values side _ memory across written =>
      obtain ⟨result, memory', encoded, grows, -⟩ :=
        Paged.encode_cases t tag values (sound.pages t side)
      cases encoded.symm.trans written
      exact sound.sustain (m := { s.machine with memory }) (.of_grows grows rfl)
  | allocate across answered => exact sound.sustain (.callAllocFrame answered)
  | map across frame => exact sound.sustain (.of_steady (s.machine.steady_callMapFrame frame))
  | prepare t across idle answered shown =>
      have kept := sound.sustain (.callAllocFrame answered)
      exact { kept with inHand := kept.backed.mapFrame shown }
  | mark => exact { sound with pages := sound.pages }
  | unmark => exact { sound with pages := sound.pages }
  | near granted => exact sound.near granted
  | far inHand asks shown known => exact sound.far shown known
  | adopt across => exact { sound with panes := fun chan same => by cases same }
  | answer => exact sound
  | handlers => exact { sound with pages := sound.pages }
  | register registered => exact sound.register registered
  | pageSize => exact { sound with pages := sound.pages }
  | release => exact sound.drop rfl
  | notice may noticed => exact sound.noticed noticed

end Sound

/-! ### Wherever a party gets -/

/-- The machine may change in this way, and the others in any. -/
def Sustained (scene scene' : Scene σ) : Prop := Sustains scene.machine scene'.machine

/-- The party and the machine at a stage. -/
def Stage.seat (stage : Stage η σ) : Seat η := ⟨stage.1, stage.2.self, stage.2.scene.machine⟩

/-- No step adds a turn. -/
theorem Course.turns_subset {terms : Terms σ} {stage stage' : Stage η σ} {events : List Event}
    (course : Course terms stage events stage') : stage'.2.turns ⊆ stage.2.turns := by
  induction course with
  | nil => exact fun _ mem => mem
  | next _ last ih =>
      refine List.Subset.trans ?_ ih
      cases last with
      | deal => exact fun _ mem => mem
      | aside => exact fun _ mem => mem
      | pass paused =>
          obtain ⟨turn, rest, scene, turns, -, rfl⟩ := Task.turn_of_pause paused
          rw [turns]
          exact List.subset_cons_self _ _

theorem Sound.course {terms : Terms σ} {stage stage' : Stage η σ} {events : List Event}
    (course : Course terms stage events stage')
    (asides : ∀ scene scene', terms.asides scene scene' → Sustained scene scene')
    (lawful : ∀ turn ∈ stage.2.turns, Turn.Follows Sustained turn) (sound : Sound stage.seat) :
    Sound stage'.seat := by
  induction course with
  | nil => exact sound
  | next trace last ih =>
      cases last with
      | @pass phase now _ paused =>
          obtain ⟨scene, rest, rfl, follows, -⟩ := Task.follows_of_pause paused fun turn mem =>
            lawful turn (Course.turns_subset trace mem)
          exact ih.sustain follows
      | aside may => exact ih.sustain (asides _ _ may)
      | deal deal => exact ih.deal deal

end Conduit.Rpc

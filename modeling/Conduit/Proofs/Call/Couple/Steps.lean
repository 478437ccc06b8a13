/-
# The pages of two parties, step by step

Whatever one of two parties at the ends of a channel without faults does, the pages that it has
the other map stay as they should (`SetUp.asker`), and so do those that it maps for the other
(`SetUp.mapper`).
-/

import Conduit.Proofs.Call.Couple.Setup

namespace Conduit.Rpc

variable {η ζ : Type} {p : Party η} {q : Party ζ} {m : Machine} {toP toQ toP' toQ' : List Message}
  {a b : Cap} {atP atQ : List Letter} {notices : Prop} {events : List Event}

theorem Party.Keeps.refl (q : Party ζ) : q.Keeps q :=
  ⟨fun _ _ shares => shares, fun _ _ same => same⟩

/-- Where nothing is received and nothing is sent, the same messages wait. -/
theorem queues_of_quiet (own : receivedIn events ++ toP' = toP)
    (other : toQ' = toQ ++ (sentIn events).map fun message => message.letter.message)
    (received : receivedIn events = []) (sent : sentIn events = []) : toP' = toP ∧ toQ' = toQ := by
  rw [received] at own
  rw [sent] at other
  exact ⟨own, other.trans (List.append_nil _)⟩

/-- Without a slot for a capability there is none at all. -/
theorem exhausted_of_refused {ep : Endpoint} {m' : Machine} {e : ChannelError}
    (duplex : Duplex m a b atP atQ) (refused : ep.allocRecvSlot m = (.error e, m')) :
    m.Exhausted := by
  obtain ⟨m', -, -, allocated⟩ | ⟨full, -⟩ := duplex.allocRecvSlot
  · cases (allocated ep).symm.trans refused
  · by_contra left
    exact full (Machine.room_of_slot_ne left)

theorem get?_of_mapFrame {frame : Cap} {page : View} (shown : m.kernel.mapFrame frame = .ok page) :
    m.kernel.frames.get? frame = some page := by
  unfold Kernel.mapFrame at shown
  cases known : m.kernel.frames.get? frame with
  | none =>
      rw [known] at shown
      cases shown
  | some view =>
      rw [known] at shown
      cases shown
      rfl

/-- A page that a party notes as its own is the only one that is new. -/
theorem near_of_modify_near {rpc : Rpc η} {t t' : MessageType} {page page' : View}
    (known : ({ rpc with entries := rpc.entries.modify t ({ · with nearPage := some page }) } :
      Rpc η).page? t' .near = some page') :
    (t' = t ∧ page' = page) ∨ rpc.page? t' .near = some page' := by
  unfold page? at known ⊢
  rw [Table.get?_modify] at known
  by_cases same : t = t'
  · rw [if_pos same] at known
    cases there : rpc.entries.get? t' with
    | none =>
        rw [there] at known
        cases known
    | some entry =>
        rw [there] at known
        exact .inl ⟨same.symm, (Option.some.inj known).symm⟩
  · rw [if_neg same] at known
    exact .inr known

theorem page?_insert_far {rpc : Rpc η} {t : MessageType} {entry : Entry}
    (known : rpc.entries.get? t = some entry) (page : View) (t' : MessageType) :
    ({ rpc with entries := rpc.entries.insert t { entry with farPage := some page } } :
      Rpc η).page? t' .near = rpc.page? t' .near := by
  unfold page?
  rw [Table.get?_insert]
  by_cases same : t = t'
  · rw [if_pos same, ← same, known]
    rfl
  · rw [if_neg same]

namespace Party

/-- A step that leaves the pages of the peer alone. -/
theorem shares_after {phase : Phase} {rpc : Rpc ζ}
    (far : ∀ t, rpc.page? t .far = q.rpc.page? t .far) (t : MessageType) (page : View)
    (shares : q.Shares t page) : (q.after phase rpc).Shares t page := by
  rcases shares with same | ⟨none, dropped⟩
  · exact .inl ((far t).trans same)
  · exact .inr ⟨(far t).trans none, .inl dropped⟩

/-- A binding is registered, in place of one that may have a page of the peer. -/
theorem shares_register {phase : Phase} {rpc : Rpc ζ} {binding : Binding}
    (registered : q.rpc.register binding = .ok rpc) (t : MessageType) (page : View)
    (shares : q.Shares t page) : (q.after phase rpc).Shares t page := by
  have far := page?_register registered t .far
  by_cases here : binding.type = t
  · rw [if_pos here] at far
    rcases shares with same | ⟨none, dropped⟩
    · exact .inr ⟨far, .inr ⟨by rw [same]; rfl, binding, here, registered⟩⟩
    · exact .inr ⟨far, .inl dropped⟩
  · rw [if_neg here] at far
    rcases shares with same | ⟨none, dropped⟩
    · exact .inl (far.trans same)
    · exact .inr ⟨far.trans none, .inl dropped⟩

/-- What is put down, or taken up to be served, fades, unless a page was asked for and nothing is
owed. -/
theorem fades_after {phase : Phase} {rpc : Rpc η}
    (idle : phase = .free ∨ (∃ message, phase = .serving message) ∨
      ∃ t page, phase = .mapped t page)
    (near : ∀ t page, rpc.page? t .near = some page → p.rpc.page? t .near = some page)
    (asking : ∀ t page, p.phase = .asking t page → rpc.awaiting = some setupPage)
    (awaiting : rpc.awaiting = p.rpc.awaiting) : p.Fades (p.after phase rpc) := by
  refine .of_idle idle near ?_
  rintro (⟨t, page, asked⟩ | owed)
  · exact asking t page asked
  · exact awaiting.trans owed

end Party

namespace SetUp

variable {p' : Party η} {q' : Party ζ} {m' : Machine} {message : Message} {phase : Phase}
  {transport : Transport}

/-! ### A step of the asker -/

/-- Something that the asker does by itself. -/
theorem fade_asker (setUp : SetUp p q m toP toQ) (onward : m.Onward m') (fades : p.Fades p')
    (held : p'.phase.holding ≤ p.phase.holding) : SetUp p' q m' toP toQ :=
  setUp.fade onward fades (.refl q) (Nat.le_refl _) (Nat.le_refl _) (Nat.add_le_add_left held _)
    fun _ _ pending => pending

/-- A message that does not ask for a page is sent to the mapper. -/
theorem fade_sent (setUp : SetUp p q m toP toQ) (onward : m.Onward m') (fades : p.Fades p')
    (held : p'.phase.holding ≤ p.phase.holding) (tagged : message.tag ≠ setupPage.code) :
    SetUp p' q m' toP (toQ ++ [message.letter.message]) := by
  have tagged : message.letter.message.tag ≠ setupPage.code := tag_echo message ▸ tagged
  refine setUp.fade onward fades (.refl q) ?_ (Nat.le_refl _) (Nat.add_le_add_left held _) ?_
  · rw [requests_concat, if_neg tagged]
    exact Nat.le_refl _
  · rintro other asks (waits | served)
    · rcases List.mem_append.mp waits with old | new
      · exact .inl old
      · rw [List.mem_singleton.mp new] at asks
        exact absurd asks tagged
    · exact .inr served

theorem asker_sends (setUp : SetUp p q m toP toQ) (onward : m.Onward m')
    (reason : Reason (Genuine a) p.rpc p.phase message phase) :
    SetUp (p.after phase { p.rpc with transport }) q m' toP
      (toQ ++ [message.letter.message]) := by
  generalize inHand : p.phase = before at reason
  have fades : (∀ t page, before ≠ .asking t page) →
      p.Fades (p.after .free { p.rpc with transport }) := by
    intro unasked
    refine Party.fades_after (.inl rfl) (fun _ _ same => same) ?_ rfl
    intro t page asking
    exact absurd (inHand.symm.trans asking) (unasked t page)
  cases reason with
  | ask unmarked missing => exact setUp.sends onward inHand unmarked missing rfl fun _ => rfl
  | request unmarked made tagged carried =>
      refine setUp.fade_sent onward (fades fun _ _ same => by cases same) (Nat.zero_le _) ?_
      rw [tagged]
      exact fun same => made.notSetup (congrArg MessageType.mk same)
  | reply asked different tagged =>
      exact setUp.fade_sent onward (fades fun _ _ same => by cases same) (Nat.zero_le _)
        (ne_of_responds tagged rfl)
  | confirm tagged =>
      exact setUp.fade_sent onward (fades fun _ _ same => by cases same) (Nat.zero_le _)
        (ne_of_responds tagged rfl)

theorem asker_takes (setUp : SetUp p q m (message :: toP') toQ) (onward : m.Onward m')
    (picks : Picks p.phase message phase) :
    SetUp (p.after phase { p.rpc with transport }) q m' toP' toQ := by
  generalize inHand : p.phase = before at picks
  have came : replies toP' ≤ replies (message :: toP') := by
    rw [replies_cons]
    exact Nat.le_add_right _ _
  -- A message that is put away may have been a reply, which nobody waits for then.
  have away : before = phase → phase.holding = 0 →
      SetUp (p.after phase { p.rpc with transport }) q m' toP' toQ := by
    rintro rfl none
    refine setUp.fade onward (.of_eq inHand.symm (fun _ _ same => same) rfl) (.refl q)
      (Nat.le_refl _) came (Nat.add_le_add came ?_) fun _ _ pending => pending
    exact Nat.le_of_eq none |>.trans (Nat.zero_le _)
  cases picks with
  | reply => exact away rfl rfl
  | granted tagged => exact setUp.grants inHand tagged rfl fun _ => rfl
  | foreign different => exact away rfl rfl
  | serve =>
      have fades : p.Fades (p.after (.serving message) { p.rpc with transport }) :=
        Party.fades_after (.inr (.inl ⟨message, rfl⟩)) (fun _ _ same => same)
          (fun t page asking => by cases inHand.symm.trans asking) rfl
      have held : (p.after (.serving message) { p.rpc with transport }).phase.holding =
          if message.tag = setupPage.responseTag then 1 else 0 := rfl
      refine setUp.fade onward fades (.refl q) (Nat.le_refl _) came ?_ fun _ _ pending => pending
      rw [held, replies_cons]
      omega

/-- Whatever the asker does, the pages stay as they should. -/
theorem asker {s' : Seat η} (setUp : SetUp p q m toP toQ) (joins : Joins a b p.rpc)
    (duplex : Duplex m a b atP atQ) (onward : m.Onward s'.machine)
    (own : receivedIn events ++ toP' = toP)
    (other : toQ' = toQ ++ (sentIn events).map fun message => message.letter.message)
    (deal : Deal (Genuine a) notices ⟨p.phase, p.rpc, m⟩ events s') :
    SetUp (p.after s'.phase s'.rpc) q s'.machine toP' toQ' := by
  have quiet := queues_of_quiet own other
  -- What the party notes besides does not matter.
  have still : ∀ rpc : Rpc η,
      (∀ t page, rpc.page? t .near = some page → p.rpc.page? t .near = some page) →
      rpc.awaiting = p.rpc.awaiting → SetUp (p.after p.phase rpc) q s'.machine toP toQ :=
    fun rpc near awaiting => setUp.fade_asker onward (.of_eq rfl near awaiting) (Nat.le_refl _)
  cases deal with
  | @send message phase transport m' posts reason =>
      obtain rfl : toP' = toP := own
      obtain rfl : toQ' = toQ ++ [message.letter.message] := other
      exact setUp.asker_sends onward reason
  | @take message phase transport m' draws picks =>
      obtain rfl : toQ' = toQ := other.trans (List.append_nil _)
      obtain rfl : message :: toP' = toP := own
      exact setUp.asker_takes onward picks
  | barred across refused hard =>
      obtain ⟨ep, across', home, -⟩ := joins
      cases across'.symm.trans across
      exact absurd (eq_of_recv_refused duplex home refused).1 hard.2
  | slotless across refused =>
      obtain ⟨rfl, rfl⟩ := quiet rfl rfl
      exact setUp.spoils onward (exhausted_of_refused duplex refused) rfl fun _ => rfl
  | prepare t across idle answered shown =>
      obtain ⟨rfl, rfl⟩ := quiet rfl rfl
      refine setUp.prepares onward idle ?_ (get?_of_mapFrame shown) rfl rfl fun _ => rfl
      obtain ⟨-, ⟨e, refused, -⟩ | ⟨view, memory, -, left, -⟩⟩ :=
        Machine.callAllocFrame_effect answered
      · cases refused
      · exact left
  | mark unmarked made =>
      obtain ⟨rfl, rfl⟩ := quiet rfl rfl
      refine setUp.fade_asker onward ⟨fun _ _ same => same, fun _ _ same => same,
        fun _ _ _ same => same, fun _ _ same => same, fun same => same, ?_⟩ (Nat.le_refl _)
      rintro (asking | owed)
      · exact .inl asking
      · cases unmarked.symm.trans owed
  | unmark clears =>
      obtain ⟨rfl, rfl⟩ := quiet rfl rfl
      exact setUp.forgets (fun t args made => made.notSetup) clears rfl fun _ => rfl
  | near granted =>
      obtain ⟨rfl, rfl⟩ := quiet rfl rfl
      exact setUp.records granted rfl fun _ _ => near_of_modify_near
  | far inHand asks shown known =>
      obtain ⟨rfl, rfl⟩ := quiet rfl rfl
      refine setUp.fade_asker onward (Party.fades_after (.inr (.inr ⟨_, _, rfl⟩)) ?_ ?_ rfl)
        (Nat.zero_le _)
      · intro t page same
        rwa [page?_insert_far known] at same
      · intro t page asking
        cases inHand.symm.trans asking
  | register registered =>
      obtain ⟨rfl, rfl⟩ := quiet rfl rfl
      refine still _ (fun t page same => ?_) ?_
      · rw [page?_register registered] at same
        split at same
        · cases same
        · exact same
      · exact awaiting_register registered
  | release owed =>
      obtain ⟨rfl, rfl⟩ := quiet rfl rfl
      exact setUp.fade_asker onward (Party.fades_after (.inl rfl) (fun _ _ same => same) owed rfl)
        (Nat.zero_le _)
  | _ =>
      obtain ⟨rfl, rfl⟩ := quiet rfl rfl
      exact still _ (fun _ _ same => same) rfl

/-! ### A step of the mapper -/

/-- A message that does not say that a page is mapped is sent to the asker. -/
theorem fade_told (setUp : SetUp p q m toP toQ) (onward : m.Onward m') (keeps : q.Keeps q')
    (mapping : q'.phase.mapping ≤ q.phase.mapping)
    (known : ∀ message, message.tag = setupPage.code → q'.phase = .serving message →
      q.phase = .serving message)
    (tagged : message.tag ≠ setupPage.responseTag) :
    SetUp p q' m' (toP ++ [message.letter.message]) toQ := by
  have tagged : message.letter.message.tag ≠ setupPage.responseTag := tag_echo message ▸ tagged
  have same : replies (toP ++ [message.letter.message]) = replies toP := by
    rw [replies_concat, if_neg tagged, Nat.add_zero]
  refine setUp.fade onward (.of_eq rfl (fun _ _ same => same) rfl) keeps
    (Nat.add_le_add_left mapping _) (Nat.le_of_eq same) ?_ ?_
  · rw [same]
  · rintro other asks (waits | served)
    · exact .inl waits
    · exact .inr (known other asks served)

/-- Something that the mapper does by itself. -/
theorem fade_mapper (setUp : SetUp p q m toP toQ) (onward : m.Onward m') (keeps : q.Keeps q')
    (mapping : q'.phase.mapping ≤ q.phase.mapping)
    (known : ∀ message, message.tag = setupPage.code → q'.phase = .serving message →
      q.phase = .serving message) : SetUp p q' m' toP toQ := by
  refine setUp.fade onward (.of_eq rfl (fun _ _ same => same) rfl) keeps
    (Nat.add_le_add_left mapping _) (Nat.le_refl _) (Nat.le_refl _) ?_
  rintro message asks (waits | served)
  · exact .inl waits
  · exact .inr (known message asks served)

/-- The mapper puts down what it has in hand. -/
theorem fade_down {rpc : Rpc ζ} (setUp : SetUp p q m toP toQ) (onward : m.Onward m')
    (idle : phase.mapping = 0)
    (shares : ∀ t page, q.Shares t page → (q.after phase rpc).Shares t page) :
    SetUp p (q.after phase rpc) m' toP toQ := by
  refine setUp.fade_mapper onward ⟨shares, ?_⟩ (idle ▸ Nat.zero_le _) ?_
  · rintro t page rfl
    cases idle
  · rintro message asks rfl
    rw [Phase.mapping, if_pos asks] at idle
    cases idle

theorem mapper_sends (setUp : SetUp p q m toP toQ) (onward : m.Onward m')
    (reason : Reason (Genuine b) q.rpc q.phase message phase) :
    SetUp p (q.after phase { q.rpc with transport }) m' (toP ++ [message.letter.message]) toQ := by
  generalize inHand : q.phase = before at reason
  have shares : ∀ t page, q.Shares t page →
      (q.after phase { q.rpc with transport }).Shares t page := Party.shares_after fun _ => rfl
  have told : phase.mapping = 0 → (∀ t page, phase ≠ .mapped t page) →
      (∀ message, phase ≠ .serving message) → message.tag ≠ setupPage.responseTag →
      SetUp p (q.after phase { q.rpc with transport }) m' (toP ++ [message.letter.message]) toQ :=
    fun idle unmapped unserved => setUp.fade_told onward
      ⟨shares, fun t page same => absurd same (unmapped t page)⟩ (idle ▸ Nat.zero_le _)
      fun message _ served => absurd served (unserved message)
  cases reason with
  | ask unmarked missing =>
      have asked : MessageType.isResponse setupPage.code = false := by decide
      exact told rfl (fun _ _ same => by cases same) (fun _ same => by cases same)
        (tag_ne_of_asked asked)
  | request unmarked made tagged carried =>
      exact told rfl (fun _ _ same => by cases same) (fun _ same => by cases same)
        (tag_ne_of_asked (tagged ▸ made.asked))
  | @reply request message asked different tagged =>
      refine told rfl (fun _ _ same => by cases same) (fun _ same => by cases same) ?_
      rw [tagged]
      intro same
      have type : (⟨request.tag⟩ : MessageType) = setupPage :=
        MessageType.responseTag_injective asked rfl same
      exact different (congrArg MessageType.code type)
  | confirm tagged =>
      exact setUp.confirms onward inHand ((tag_echo message).trans tagged) rfl shares

theorem mapper_takes (setUp : SetUp p q m toP (message :: toQ')) (onward : m.Onward m')
    (picks : Picks q.phase message phase) :
    SetUp p (q.after phase { q.rpc with transport }) m' toP toQ' := by
  have same : p.Fades p := .of_eq rfl (fun _ _ same => same) rfl
  have shares : ∀ t page, q.Shares t page →
      (q.after phase { q.rpc with transport }).Shares t page := Party.shares_after fun _ => rfl
  have idle : phase.mapping = 0 → (∀ t page, phase ≠ .mapped t page) →
      (∀ message, phase ≠ .serving message) →
      SetUp p (q.after phase { q.rpc with transport }) m' toP toQ' := by
    intro none unmapped unserved
    refine setUp.fade onward same ⟨shares, fun t page same => absurd same (unmapped t page)⟩
      ?_ (Nat.le_refl _) (Nat.le_refl _) ?_
    · rw [show (q.after phase { q.rpc with transport }).phase.mapping = 0 from none, requests_cons]
      omega
    · rintro other asks (waits | served)
      · exact .inl (List.mem_cons_of_mem _ waits)
      · exact absurd served (unserved other)
  generalize q.phase = before at picks
  cases picks with
  | reply => exact idle rfl (fun _ _ same => by cases same) fun _ same => by cases same
  | granted tagged => exact idle rfl (fun _ _ same => by cases same) fun _ same => by cases same
  | foreign different =>
      exact idle rfl (fun _ _ same => by cases same) fun _ same => by cases same
  | serve =>
      have mapping : (q.after (.serving message) { q.rpc with transport }).phase.mapping =
          if message.tag = setupPage.code then 1 else 0 := rfl
      refine setUp.fade onward same ⟨shares, fun _ _ same => by cases same⟩ ?_ (Nat.le_refl _)
        (Nat.le_refl _) ?_
      · rw [requests_cons, mapping]
        omega
      · rintro other asks (waits | served)
        · exact .inl (List.mem_cons_of_mem _ waits)
        · cases served
          exact .inl List.mem_cons_self

/-- Whatever the mapper does, the pages stay as they should. -/
theorem mapper {s' : Seat ζ} (setUp : SetUp p q m toP toQ) (onward : m.Onward s'.machine)
    (own : receivedIn events ++ toQ' = toQ)
    (other : toP' = toP ++ (sentIn events).map fun message => message.letter.message)
    (deal : Deal (Genuine b) notices ⟨q.phase, q.rpc, m⟩ events s') :
    SetUp p (q.after s'.phase s'.rpc) s'.machine toP' toQ' := by
  have quiet := queues_of_quiet own other
  have still : ∀ rpc : Rpc ζ, (∀ t page, q.Shares t page → (q.after q.phase rpc).Shares t page) →
      SetUp p (q.after q.phase rpc) s'.machine toP toQ :=
    fun rpc shares => setUp.fade_mapper onward ⟨shares, fun _ _ same => same⟩ (Nat.le_refl _)
      fun _ _ served => served
  cases deal with
  | @send message phase transport m' posts reason =>
      obtain rfl : toQ' = toQ := own
      obtain rfl : toP' = toP ++ [message.letter.message] := other
      exact setUp.mapper_sends onward reason
  | @take message phase transport m' draws picks =>
      obtain rfl : toP' = toP := other.trans (List.append_nil _)
      obtain rfl : message :: toQ' = toQ := own
      exact setUp.mapper_takes onward picks
  | slotless across refused =>
      obtain ⟨rfl, rfl⟩ := quiet rfl rfl
      exact setUp.fade_down onward rfl (Party.shares_after fun _ => rfl)
  | barred across refused hard =>
      obtain ⟨rfl, rfl⟩ := quiet rfl rfl
      exact setUp.fade_down onward rfl (Party.shares_after fun _ => rfl)
  | prepare t across idle answered shown =>
      obtain ⟨rfl, rfl⟩ := quiet rfl rfl
      exact setUp.fade_down onward rfl (Party.shares_after fun _ => rfl)
  | near granted =>
      obtain ⟨rfl, rfl⟩ := quiet rfl rfl
      exact setUp.fade_down onward rfl
        (Party.shares_after fun t => page?_setPage_of_keeps _ _ t fun _ => rfl)
  | @far request t frame page entry inHand asks shown known =>
      obtain ⟨rfl, rfl⟩ := quiet rfl rfl
      refine setUp.maps inHand asks (get?_of_mapFrame shown) rfl ?_ ?_
      · simp only [Party.after, page?, Table.get?_insert, if_pos]
        rfl
      · intro t' page' apart shares
        have far : ({ q.rpc with
            entries := q.rpc.entries.insert t { entry with farPage := some page } } :
            Rpc ζ).page? t' .far = q.rpc.page? t' .far := by
          simp only [page?, Table.get?_insert, if_neg apart]
        rcases shares with same | ⟨none, dropped⟩
        · exact .inl (far.trans same)
        · exact .inr ⟨far.trans none, .inl dropped⟩
  | register registered =>
      obtain ⟨rfl, rfl⟩ := quiet rfl rfl
      exact still _ (Party.shares_register registered)
  | release owed =>
      obtain ⟨rfl, rfl⟩ := quiet rfl rfl
      exact setUp.fade_down onward rfl (Party.shares_after fun _ => rfl)
  | _ =>
      obtain ⟨rfl, rfl⟩ := quiet rfl rfl
      exact still _ (Party.shares_after fun _ => rfl)

end SetUp

end Conduit.Rpc

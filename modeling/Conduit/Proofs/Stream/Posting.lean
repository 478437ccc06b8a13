/-
# What a byte string puts on the way

Sending a byte string makes a transport accept its messages one after the other, whatever
happens in between: a try may find no room, any number of times, and the others act while the
sender waits (`Transport.Transmits`). `Posted` says which messages these are, by their lengths
and bytes alone: the first begins with the length of the string, the others go on with its
bytes, none holds anything else but zeros, and over a capability channel the last of the others
waits for the receiver.

* `ends_send_transmits`, `Transmits.syncSends` — one message, and what the kernel counts.
* `ends_streamSend_posts` — what was transmitted when sending ends, and when it is refused.
* `posted_posts` — the messages of a byte string, position by position.
* `send_transmits` — the result.
-/

import Conduit.Proofs.Stream.Line
import Conduit.Proofs.Stream.Meaning
import Conduit.Proofs.Stream.Width

namespace Conduit

variable {σ : Type}

/-! ### One endpoint -/

namespace Endpoint

variable {ep : Endpoint} {flags : SendFlags} {letter : Letter} {m m' : Machine}

/-- Sending uses up the planned fault, if there is one. If it was none, the kernel queues the
letter at the peer. -/
theorem enqueue_of_sent (sent : ep.send flags letter m = (.ok (), m')) :
    ∃ peer k, ep.peer = some peer ∧ m.kernel.enqueue peer letter flags = .ok k ∧
      m' = { (m.nextFault (.endpoint ep.home .send)).2 with kernel := k } := by
  have same := m.kernel_nextFault (.endpoint ep.home .send)
  unfold send unlessFault at sent
  rcases taken : m.nextFault (.endpoint ep.home .send) with ⟨_ | e, m₁⟩
  · rw [taken] at same sent
    cases known : ep.peer with
    | none => simp [known] at sent
    | some peer =>
        simp only [known, Machine.onKernel_, Machine.onKernel] at sent
        cases queued : m₁.kernel.enqueue peer letter flags with
        | error e => simp [queued, Except.map] at sent
        | ok k =>
            simp only [queued, Except.map, Prod.mk.injEq] at sent
            refine ⟨peer, k, rfl, ?_, sent.2.symm⟩
            rwa [← same]
  · rw [taken] at sent
    simp at sent

/-- A refusal does no more. The endpoint is not connected if it has no peer, or if that is the
fault. -/
theorem eq_of_refused {e : ChannelError} (refused : ep.send flags letter m = (.error e, m')) :
    m' = (m.nextFault (.endpoint ep.home .send)).2 ∧ (e = .notConnected →
      ep.peer = none ∨ (m.nextFault (.endpoint ep.home .send)).1 = some .notConnected) := by
  unfold send unlessFault at refused
  rcases taken : m.nextFault (.endpoint ep.home .send) with ⟨_ | e', m₁⟩
  · rw [taken] at refused
    cases known : ep.peer with
    | none =>
        simp only [known, Prod.mk.injEq] at refused
        exact ⟨refused.2.symm, fun _ => .inl rfl⟩
    | some peer =>
        simp only [known, Machine.onKernel_, Machine.onKernel] at refused
        cases queued : m₁.kernel.enqueue peer letter flags with
        | ok k => simp [queued, Except.map] at refused
        | error e' =>
            simp only [queued, Except.map, Prod.mk.injEq, Except.error.injEq] at refused
            obtain ⟨rfl, rfl⟩ := refused
            refine ⟨rfl, fun same => ?_⟩
            subst same
            unfold Kernel.enqueue at queued
            split at queued
            · cases queued
            · split at queued
              · cases queued
              · cases queued
  · rw [taken] at refused
    simp only [Prod.mk.injEq, Except.error.injEq] at refused
    obtain ⟨rfl, rfl⟩ := refused
    exact ⟨rfl, fun same => .inr (congrArg some same)⟩

end Endpoint

/-- What the kernel counts when it queues a message. -/
theorem Kernel.syncSends_enqueue {k k' : Kernel} {target : Cap} {letter : Letter}
    {flags : SendFlags} (queued : k.enqueue target letter flags = .ok k') :
    k'.syncSends = k.syncSends + flags.sync.toNat := by
  unfold enqueue at queued
  split at queued
  · cases queued
  · split at queued
    · cases queued
    · cases queued
      cases flags.sync with
      | true => rfl
      | false => rfl

/-! ### What a transport accepts -/

namespace Transport

theorem one_le_width_endpoint (ep : Endpoint) : 1 ≤ (Transport.endpoint ep).width :=
  (by decide : 1 ≤ Letter.width)

/-- One step of a transport while its party sends, with the message that it accepts. -/
inductive Posting : Moment Transport σ → List (List UInt64 × SendFlags) → Moment Transport σ → Prop
  /-- The others act once. -/
  | pass {now now' : Moment Transport σ} (paused : Task.pause now = .ok () now') :
      Posting now [] now'
  /-- The kernel has no room, or refuses as planned. -/
  | refuse {now : Moment Transport σ} {ep : Endpoint} (across : now.self = .endpoint ep) :
      Posting now []
        { now with scene.machine := (now.scene.machine.nextFault (.endpoint ep.home .send)).2 }
  /-- The next slot is not free. -/
  | occupied {now : Moment Transport σ} {chan : SlotChannel} (across : now.self = .slots chan) :
      Posting now [] now
  /-- The kernel queues the message at the peer. -/
  | queue {now : Moment Transport σ} {ep : Endpoint} {peer : Cap} {k : Kernel}
      {words : List UInt64} {flags : SendFlags} (across : now.self = .endpoint ep)
      (known : ep.peer = some peer)
      (queued : now.scene.machine.kernel.enqueue peer ⟨Letter.fit words, none⟩ flags = .ok k) :
      Posting now [(words, flags)] { now with scene.machine :=
        { (now.scene.machine.nextFault (.endpoint ep.home .send)).2 with kernel := k } }
  /-- The message fills the next slot. -/
  | fill {now : Moment Transport σ} {chan chan' : SlotChannel} {m : Machine}
      {words : List UInt64} {flags : SendFlags} (across : now.self = .slots chan)
      (filled : chan.send words now.scene.machine = .ok (.ok true, chan', m)) :
      Posting now [(words, flags)] (changed now (.slots chan') m)

/-- Any number of steps, with all messages that were accepted. -/
inductive Transmits (now : Moment Transport σ) :
    List (List UInt64 × SendFlags) → Moment Transport σ → Prop
  | start : Transmits now [] now
  | next {sent more : List (List UInt64 × SendFlags)} {mid last : Moment Transport σ}
      (before : Transmits now sent mid) (step : Posting mid more last) :
      Transmits now (sent ++ more) last

variable {now mid last : Moment Transport σ} {sent more : List (List UInt64 × SendFlags)}
  {words : List UInt64} {flags : SendFlags}

theorem Transmits.append (first : Transmits now sent mid) (later : Transmits mid more last) :
    Transmits now (sent ++ more) last := by
  induction later with
  | start => rwa [List.append_nil]
  | next _ step ih =>
      rw [← List.append_assoc]
      exact .next ih step

theorem Transmits.quiet (before : Transmits now sent mid) (step : Posting mid [] last) :
    Transmits now sent last := by
  have whole := before.next step
  rwa [List.append_nil] at whole

/-- An endpoint stays what it is. -/
theorem Transmits.endpoint_iff (transmits : Transmits now sent last) (ep : Endpoint) :
    last.self = .endpoint ep ↔ now.self = .endpoint ep := by
  induction transmits with
  | start => rfl
  | next _ step ih =>
      rw [← ih]
      cases step with
      | pass paused => rw [Task.self_of_pause paused]
      | refuse across => rfl
      | occupied across => rfl
      | queue across known queued => rfl
      | fill across filled =>
          constructor
          · intro same
            cases same
          · intro same
            cases across.symm.trans same

theorem Transmits.isEndpoint (transmits : Transmits now sent last) :
    last.self.isEndpoint = now.self.isEndpoint := by
  induction transmits with
  | start => rfl
  | next _ step ih =>
      rw [← ih]
      cases step with
      | pass paused => rw [Task.self_of_pause paused]
      | refuse across => rfl
      | occupied across => rfl
      | queue across known queued => rfl
      | fill across filled =>
          rw [across]
          rfl

/-- One try has the message accepted, or nothing is. Only an endpoint fails. -/
theorem ends_offer_posting (words : List UInt64) (flags : SendFlags) (now : Moment Transport σ) :
    Task.Ends (offer { words } flags now) (fun
      | none, now' => Posting now [] now'
      | some (), now' => Posting now [(words, flags)] now')
      fun stop now' => ∀ e, stop = .failed e → Posting now [] now' ∧
        ∃ ep cause, now.self = .endpoint ep ∧ e = Error.ofChannel cause ∧
        (cause = .notConnected → ep.peer = none ∨
          (now.scene.machine.nextFault (.endpoint ep.home .send)).1 = some .notConnected) := by
  unfold offer
  rw [Task.self_bind]
  cases across : now.self with
  | endpoint ep =>
      simp only [Task.asking_bind]
      rcases answered : ep.send flags ⟨Letter.fit words, none⟩ now.scene.machine with
        ⟨cause | u, m⟩
      · obtain ⟨rfl, unconnected⟩ := Endpoint.eq_of_refused answered
        have refuse := Posting.refuse across
        rw [← across]
        cases cause with
        | transient => exact refuse
        | _ =>
            rintro e same
            cases same
            exact ⟨refuse, ep, _, across, rfl, unconnected⟩
      · obtain ⟨peer, k, known, queued, rfl⟩ := Endpoint.enqueue_of_sent answered
        exact .queue across known queued
  | slots chan =>
      simp only [Task.machine_bind]
      cases ran : chan.send words now.scene.machine with
      | error cause =>
          rintro e same
          cases same
      | ok result =>
          obtain ⟨answer, chan', m⟩ := result
          have idle : answer ≠ .ok true → Posting now [] (changed now (.slots chan') m) := by
            intro unfilled
            obtain ⟨rfl, rfl⟩ := SlotChannel.eq_of_send_unfilled ran unfilled
            have same : changed now (.slots chan') now.scene.machine = now := by
              rw [changed, ← across]
            rw [same]
            exact .occupied across
          rcases answer with e | _ | _
          · exact idle fun same => by cases same
          · exact idle fun same => by cases same
          · exact .fill across ran

/-- A message that is not accepted leaves nothing behind. It is refused as not connected only
by an endpoint without a peer, or by a planned fault. -/
structure Unsent (now : Moment Transport σ) (e : Error) (last : Moment Transport σ) : Prop where
  nothing : Transmits now [] last
  isOpen : e ≠ .closed
  unconnected : e = .notConnected → ∃ ep mid, now.self = .endpoint ep ∧ Transmits now [] mid ∧
    (ep.peer = none ∨
      (mid.scene.machine.nextFault (.endpoint ep.home .send)).1 = some .notConnected)

/-- However long it takes until there is room, the message is accepted once. -/
theorem ends_send_transmits (words : List UInt64) (flags : SendFlags) (now : Moment Transport σ) :
    Task.Ends (send { words } flags now)
      (fun _ now' => Transmits now [(words, flags)] now' ∧
        (now.self.isEndpoint = false → words.length ≤ now.self.width))
      fun stop now' => ∀ e, stop = .failed e → Unsent now e now' := by
  have waits : Task.Ends (Task.await (offer { words } flags) now)
      (fun _ now' => Transmits now [(words, flags)] now')
      fun stop now' => ∀ e, stop = .failed e → Unsent now e now' := by
    refine Task.ends_polling (Transmits now []) ?_ ?_ ?_ .start
    · intro mid before
      refine (ends_offer_posting words flags mid).mono ?_ ?_
      · rintro (_ | _) last step
        · exact before.quiet step
        · exact before.next step
      · rintro stop last fails e rfl
        obtain ⟨refuse, ep, cause, across, rfl, unconnected⟩ := fails e rfl
        have known : now.self = .endpoint ep := (before.endpoint_iff ep).mp across
        refine ⟨before.quiet refuse, ?_, ?_⟩
        · cases cause <;> decide
        · intro same
          have cause_eq : cause = .notConnected := by
            cases cause <;> first | rfl | cases same
          exact ⟨ep, mid, known, before, unconnected cause_eq⟩
    · intro mid before
      cases paused : Task.pause mid with
      | ok u last => exact before.quiet (.pass paused)
      | error stop last =>
          rintro e rfl
          exact (Task.FailsOnly.of_ran (p := fun _ => False) .pause paused).elim
    · rintro mid - e same
      cases same
  unfold send
  rw [Task.self_bind]
  cases across : now.self with
  | endpoint ep =>
      exact waits.mono (fun _ _ sent => ⟨sent, fun no => by cases no⟩) fun _ _ ends => ends
  | slots chan =>
      simp only [Option.isSome_none, Bool.false_eq_true, if_false]
      split
      · rintro e same
        cases same
        exact ⟨.start, by decide, fun same => by cases same⟩
      · rename_i fits
        exact waits.mono (fun _ _ sent => ⟨sent, fun _ => Nat.not_lt.mp fits⟩) fun _ _ ends => ends

/-! ### What the kernel counts -/

/-- The others leave the count of the messages that wait for their receiver alone. -/
def Uncounted (turns : List (Turn σ)) : Prop :=
  ∀ turn ∈ turns, ∀ scene scene', turn scene = .ok () scene' →
    scene'.machine.kernel.syncSends = scene.machine.kernel.syncSends

theorem countP_sync_singleton (words : List UInt64) (flags : SendFlags) :
    [(words, flags)].countP (·.2.sync) = flags.sync.toNat := by
  cases asks : flags.sync with
  | true => simp [asks]
  | false => simp [asks]

/-- The kernel counts the messages that ask for an acknowledgement. It does not see those in
slots. -/
theorem Transmits.syncSends (transmits : Transmits now sent last)
    (uncounted : Uncounted now.turns) : last.scene.machine.kernel.syncSends = now.scene.machine.kernel.syncSends +
      if now.self.isEndpoint then sent.countP (·.2.sync) else 0 := by
  suffices counts : last.turns ⊆ now.turns ∧ last.scene.machine.kernel.syncSends =
      now.scene.machine.kernel.syncSends +
        if now.self.isEndpoint then sent.countP (·.2.sync) else 0 from counts.2
  induction transmits with
  | start => simp
  | next before step ih =>
      obtain ⟨fewer, counted⟩ := ih
      have across := before.isEndpoint
      cases step with
      | pass paused =>
          obtain ⟨turn, rest, scene, turns, passed, rfl⟩ := Task.turn_of_pause paused
          rw [turns] at fewer
          obtain ⟨next, fewer⟩ := List.cons_subset.mp fewer
          refine ⟨fewer, ?_⟩
          rw [List.append_nil, ← counted]
          exact uncounted turn next _ _ passed
      | refuse refusing =>
          rw [List.append_nil, ← counted]
          exact ⟨fewer, by rw [Machine.kernel_nextFault]⟩
      | occupied across =>
          rw [List.append_nil]
          exact ⟨fewer, counted⟩
      | queue endpoint known queued =>
          refine ⟨fewer, (Kernel.syncSends_enqueue queued).trans ?_⟩
          have isEndpoint : now.self.isEndpoint = true := by
            rw [← across, endpoint]
            rfl
          rw [if_pos isEndpoint] at counted
          rw [counted, if_pos isEndpoint, List.countP_append, countP_sync_singleton, Nat.add_assoc]
      | fill slots filled =>
          obtain ⟨-, memory, bells, rfl⟩ := SlotChannel.changed_of_send_filled filled
          rw [slots] at across
          rw [← across] at counted ⊢
          exact ⟨fewer, counted⟩

end Transport

/-! ### One byte string -/

namespace Stream

open Transport (Transmits Unsent)

/-- The transport of a stream. -/
def carrier (now : Moment Stream σ) : Moment Transport σ :=
  ⟨now.self.transport, now.scene, now.turns⟩

/-- The further messages of a byte string with their flags: where an acknowledgement is asked
for, the last of them does. -/
def further (acknowledged : Bool) (tail : List (List UInt64)) : List (List UInt64 × SendFlags) :=
  if acknowledged then flagged tail else tail.map fun words => (words, SendFlags.standard)

/-- The messages of a byte string with their flags. -/
def posts (t : Transport) (data : List UInt8) : List (List UInt64 × SendFlags) :=
  (headWords t.width data, SendFlags.standard) :: further t.isEndpoint (tailWords t.width data)

theorem further_cons (acknowledged : Bool) (words next : List UInt64) (rest : List (List UInt64)) :
    further acknowledged (words :: next :: rest) =
      (words, SendFlags.standard) :: further acknowledged (next :: rest) := by
  cases acknowledged with
  | true => rfl
  | false => rfl

variable {now : Moment Stream σ}

/-- The first of the messages were transmitted, and the next one was not sent. -/
def Torn (now : Moment Transport σ) (messages : List (List UInt64 × SendFlags)) (e : Error)
    (last : Moment Transport σ) : Prop :=
  ∃ sent message rest mid, messages = sent ++ message :: rest ∧ Transmits now sent mid ∧
    Unsent mid e last

theorem Torn.cons {start mid last : Moment Transport σ} {message : List UInt64 × SendFlags}
    {messages : List (List UInt64 × SendFlags)} {e : Error} (first : Transmits start [message] mid)
    (torn : Torn mid messages e last) : Torn start (message :: messages) e last := by
  obtain ⟨sent, next, rest, mid', rfl, later, unsent⟩ := torn
  exact ⟨message :: sent, next, rest, mid', rfl, first.append later, unsent⟩

theorem ends_onTransport_send (words : List UInt64) (flags : SendFlags) (now : Moment Stream σ) :
    Task.Ends (onTransport (Transport.send { words } flags) now)
      (fun _ now' => Transmits (carrier now) [(words, flags)] (carrier now') ∧
        (now.self.transport.isEndpoint = false → words.length ≤ now.self.transport.width))
      fun stop now' => ∀ e, stop = .failed e → Unsent (carrier now) e (carrier now') :=
  Task.ends_within (Transport.ends_send_transmits words flags (carrier now))

/-- The further messages are transmitted in order, up to the first that is not sent. -/
theorem ends_sendTail_posts (tail : List (List UInt64)) (now : Moment Stream σ) :
    Task.Ends (sendTail tail now)
      (fun _ now' => Transmits (carrier now) (further now.self.transport.isEndpoint tail)
        (carrier now'))
      fun stop now' => ∀ e, stop = .failed e →
        Torn (carrier now) (further now.self.transport.isEndpoint tail) e (carrier now') := by
  induction tail generalizing now with
  | nil =>
      have none : further now.self.transport.isEndpoint [] = [] := by
        unfold further flagged
        cases now.self.transport.isEndpoint <;> rfl
      rw [none]
      exact .start
  | cons words rest ih =>
      cases rest with
      | nil =>
          unfold sendTail
          rw [Task.self_bind]
          have one : further now.self.transport.isEndpoint [words] =
              [(words, if now.self.transport.isEndpoint then SendFlags.standard.withSync
                else SendFlags.standard)] := by
            unfold further flagged
            cases now.self.transport.isEndpoint <;> rfl
          rw [one]
          refine (ends_onTransport_send words _ now).mono (fun _ _ sent => sent.1) ?_
          intro stop last unsent e failed
          exact ⟨[], _, [], carrier now, rfl, .start, unsent e failed⟩
      | cons next rest =>
          rw [further_cons]
          unfold sendTail
          apply Task.ends_bind
          refine (ends_onTransport_send words _ now).mono ?_ ?_
          · rintro _ mid ⟨first, -⟩
            have same : mid.self.transport.isEndpoint = now.self.transport.isEndpoint :=
              first.isEndpoint
            have later := ih mid
            rw [same] at later
            refine later.mono (fun _ _ sent => first.append sent) ?_
            intro stop last torn e failed
            exact (torn e failed).cons first
          · intro stop last unsent e failed
            exact ⟨[], _, _, carrier now, rfl, .start, unsent e failed⟩

/-- A byte string is transmitted whole, or refused at once, or torn by a refusal of the
transport. -/
theorem ends_streamSend_posts (data : List UInt8) (now : Moment Stream σ) :
    Task.Ends (Stream.send data now)
      (fun _ now' => now.self.closed = false ∧ 1 ≤ now.self.transport.width ∧
        Transmits (carrier now) (posts now.self.transport data) (carrier now'))
      fun stop now' => ∀ e, stop = .failed e →
        (now' = now ∧ (e = .notConnected → ∃ ep, now.self.transport = .endpoint ep ∧
          ep.peer = none)) ∨
        (now.self.closed = false ∧
          (∀ ep, now.self.transport = .endpoint ep → ep.peer ≠ none) ∧
          Torn (carrier now) (posts now.self.transport data) e (carrier now')) := by
  unfold Stream.send
  rw [Task.self_bind]
  by_cases closed : now.self.closed = true
  · rw [if_pos closed]
    rintro e same
    cases same
    exact .inl ⟨rfl, fun same => by cases same⟩
  rw [if_neg closed]
  by_cases mark : UInt64.ofNat data.length = closeMark
  · rw [if_pos mark]
    rintro e same
    cases same
    exact .inl ⟨rfl, fun same => by cases same⟩
  rw [if_neg mark]
  have isOpen := Bool.eq_false_iff.mpr closed
  split
  · rename_i home armed across
    rintro e same
    cases same
    exact .inl ⟨rfl, fun _ => ⟨_, across, rfl⟩⟩
  · rename_i known
    have peered : ∀ ep, now.self.transport = .endpoint ep → ep.peer ≠ none := by
      rintro ⟨home, peer, armed⟩ across none
      obtain rfl : peer = Option.none := none
      exact known _ _ across
    apply Task.ends_bind
    refine (ends_onTransport_send _ _ now).mono ?_ ?_
    · rintro _ mid ⟨first, fits⟩
      have wide : 1 ≤ now.self.transport.width := by
        cases across : now.self.transport with
        | endpoint ep => exact Transport.one_le_width_endpoint ep
        | slots chan =>
            rw [across] at fits
            have length := fits rfl
            rw [headWords, List.length_cons, Word.length_pack] at length
            omega
      have same : mid.self.transport.isEndpoint = now.self.transport.isEndpoint :=
        first.isEndpoint
      have later := ends_sendTail_posts (tailWords now.self.transport.width data) mid
      rw [same] at later
      refine later.mono (fun _ _ sent => ⟨isOpen, wide, first.append sent⟩) ?_
      intro stop last torn e failed
      exact .inr ⟨isOpen, peered, (torn e failed).cons first⟩
    · intro stop last unsent e failed
      exact .inr ⟨isOpen, peered, [], _, _, carrier now, rfl, .start, unsent e failed⟩

/-! ### Which messages these are -/

/-- Bytes, and zeros behind them up to a length. -/
def zeroed (length : Nat) (bytes : List UInt8) : List UInt8 :=
  bytes ++ List.replicate (length - bytes.length) 0

/-- The messages of a byte string, position by position. -/
structure Posted (t : Transport) (data : List UInt8) (sent : List (List UInt64 × SendFlags)) :
    Prop where
  /-- One message, and as many more as it takes to hold what is too long for the first. -/
  count : sent.length = 1 + messagesFor t.width (data.length - headRoom t.width)
  /-- Each of them is a whole message. -/
  whole : ∀ message ∈ sent, message.1.length = t.width
  /-- The first holds the length, and then the first bytes and zeros. -/
  head : ∃ payload flags, sent[0]? = some (UInt64.ofNat data.length :: payload, flags) ∧
    Word.unpack payload = zeroed (headRoom t.width) (data.take (headRoom t.width))
  /-- Each of the others holds the bytes behind those before it, and zeros. -/
  further : ∀ i words flags, sent[i + 1]? = some (words, flags) →
    Word.unpack words = zeroed (t.width * Word.size)
      ((data.drop (headRoom t.width + i * (t.width * Word.size))).take (t.width * Word.size))
  /-- Over a capability channel the last of the others asks for an acknowledgement, and no
  other message does. -/
  acknowledged : ∀ i words flags, sent[i]? = some (words, flags) →
    (flags.sync = true ↔ t.isEndpoint = true ∧ 0 < i ∧ i + 1 = sent.length)

theorem getElem?_chunksWithin {length : Nat} (room : 0 < length) (bound : Nat) (bytes : List UInt8)
    (enough : bytes.length ≤ bound) (i : Nat) : (chunksWithin bound length bytes)[i]? =
      if i * length < bytes.length then some ((bytes.drop (i * length)).take length) else none := by
  induction bound generalizing bytes i with
  | zero =>
      rw [Nat.le_zero, List.length_eq_zero_iff] at enough
      simp [chunksWithin, enough]
  | succ bound ih =>
      cases bytes with
      | nil => simp [chunksWithin]
      | cons b bytes =>
          cases i with
          | zero => simp [chunksWithin]
          | succ i =>
              have shorter : ((b :: bytes).drop length).length ≤ bound := by
                rw [List.length_drop]
                omega
              have shifted : (i + 1) * length = length + i * length := by
                rw [Nat.succ_mul, Nat.add_comm]
              simp only [chunksWithin, List.getElem?_cons_succ]
              rw [ih _ shorter, List.length_drop, List.drop_drop, shifted]
              have same : i * length < (b :: bytes).length - length ↔
                  length + i * length < (b :: bytes).length := by omega
              simp only [same]

theorem length_chunksWithin {width : Nat} (wide : 1 ≤ width) (bound : Nat) (bytes : List UInt8)
    (enough : bytes.length ≤ bound) :
    (chunksWithin bound (width * Word.size) bytes).length = messagesFor width bytes.length := by
  induction bound generalizing bytes with
  | zero =>
      rw [Nat.le_zero, List.length_eq_zero_iff] at enough
      rw [enough]
      exact (messagesFor_zero wide).symm
  | succ bound ih =>
      cases bytes with
      | nil => exact (messagesFor_zero wide).symm
      | cons b bytes =>
          have room : 1 ≤ width * Word.size := Nat.mul_pos wide (by decide)
          have shorter : ((b :: bytes).drop (width * Word.size)).length ≤ bound := by
            rw [List.length_drop]
            omega
          rw [chunksWithin, List.length_cons, ih _ shorter, List.length_drop]
          · exact (messagesFor_pos wide (Nat.succ_ne_zero bytes.length)).symm
          · exact List.cons_ne_nil _ _

theorem getElem?_further (acknowledged : Bool) (tail : List (List UInt64)) (i : Nat) :
    (further acknowledged tail)[i]? = tail[i]?.map fun words =>
      (words, if acknowledged = true ∧ i + 1 = tail.length then SendFlags.standard.withSync
        else SendFlags.standard) := by
  cases acknowledged with
  | false => simp [further]
  | true =>
      simp only [further, if_true]
      fun_induction flagged tail generalizing i with
      | case1 => rfl
      | case2 words =>
          cases i with
          | zero => rfl
          | succ i => simp
      | case3 words rest more ih =>
          cases i with
          | zero =>
              simp only [List.getElem?_cons_zero, Option.map_some, Option.some.injEq, Prod.mk.injEq,
                true_and, List.length_cons]
              rw [if_neg fun last => more (List.length_eq_zero_iff.mp (by omega))]
          | succ i =>
              rw [List.getElem?_cons_succ, ih, List.getElem?_cons_succ]
              simp

theorem map_fst_further (acknowledged : Bool) (tail : List (List UInt64)) :
    (further acknowledged tail).map Prod.fst = tail := by
  apply List.ext_getElem?
  intro i
  rw [List.getElem?_map, getElem?_further, Option.map_map]
  cases tail[i]? with
  | none => rfl
  | some words => rfl

theorem unpack_pack_zeroed {count : Nat} {bytes : List UInt8}
    (fits : bytes.length ≤ count * Word.size) :
    Word.unpack (Word.pack count bytes) = zeroed (count * Word.size) bytes := by
  rw [Nat.mul_comm] at fits ⊢
  exact Word.unpack_pack fits

variable {t : Transport} {data : List UInt8}

theorem map_fst_posts (t : Transport) (data : List UInt8) :
    (posts t data).map Prod.fst = wireForm t.width data := by
  rw [posts, List.map_cons, map_fst_further]
  rfl

theorem posted_posts (wide : 1 ≤ t.width) (data : List UInt8) : Posted t data (posts t data) where
  count := by
    have length := congrArg List.length (map_fst_posts t data)
    rw [List.length_map] at length
    rw [length, wireForm, List.length_cons, tailWords, List.length_map, chunks,
      length_chunksWithin wide _ _ (Nat.le_refl _), List.length_drop, Nat.add_comm]
  whole := by
    intro message mem
    have listed : message.1 ∈ (posts t data).map Prod.fst := List.mem_map_of_mem mem
    rw [map_fst_posts] at listed
    exact length_of_mem_wireForm listed wide
  head := ⟨_, _, rfl, unpack_pack_zeroed (List.length_take_le _ _)⟩
  further := by
    intro i words flags at_i
    have room : 0 < t.width * Word.size := Nat.mul_pos wide (by decide)
    rw [posts, List.getElem?_cons_succ, getElem?_further] at at_i
    obtain ⟨words', listed, same⟩ := Option.map_eq_some_iff.mp at_i
    obtain rfl : words' = words := congrArg Prod.fst same
    rw [tailWords, List.getElem?_map, chunks] at listed
    obtain ⟨piece, among, rfl⟩ := Option.map_eq_some_iff.mp listed
    rw [getElem?_chunksWithin room _ _ (Nat.le_refl _), List.drop_drop] at among
    split at among
    · cases among
      exact unpack_pack_zeroed (List.length_take_le _ _)
    · cases among
  acknowledged := by
    intro i words flags at_i
    have length : (posts t data).length = (tailWords t.width data).length + 1 := by
      rw [← List.length_map Prod.fst, map_fst_posts]
      rfl
    cases i with
    | zero =>
        cases at_i
        simp [SendFlags.standard]
    | succ i =>
        rw [posts, List.getElem?_cons_succ, getElem?_further] at at_i
        obtain ⟨words', -, same⟩ := Option.map_eq_some_iff.mp at_i
        have asked : flags = if t.isEndpoint = true ∧ i + 1 = (tailWords t.width data).length
            then SendFlags.standard.withSync else SendFlags.standard :=
          (congrArg Prod.snd same).symm
        have last : (t.isEndpoint = true ∧ 0 < i + 1 ∧ i + 1 + 1 = (posts t data).length) ↔
            t.isEndpoint = true ∧ i + 1 = (tailWords t.width data).length := by
          rw [length]
          simp
        rw [asked, last]
        split
        · rename_i asks
          exact iff_of_true rfl asks
        · rename_i quiet
          exact iff_of_false Bool.false_ne_true quiet

theorem countP_flagged (tail : List (List UInt64)) :
    (flagged tail).countP (·.2.sync) = if tail = [] then 0 else 1 := by
  fun_induction flagged tail with
  | case1 => rfl
  | case2 words => rfl
  | case3 words rest more ih =>
      rw [List.countP_cons, ih, if_neg more]
      rfl

/-- Over a capability channel a byte string has further messages if it has more than 24
bytes. -/
theorem countP_posts (across : t.isEndpoint = true) (data : List UInt8) :
    (posts t data).countP (·.2.sync) = if 24 < data.length then 1 else 0 := by
  obtain ⟨ep, rfl⟩ : ∃ ep, t = .endpoint ep := by
    cases t with
    | endpoint ep => exact ⟨ep, rfl⟩
    | slots chan => cases across
  have none : tailWords (Transport.endpoint ep).width data = [] ↔ data.length ≤ 24 := by
    rw [← List.length_eq_zero_iff, tailWords, List.length_map, chunks,
      length_chunksWithin (Transport.one_le_width_endpoint ep) _ _ (Nat.le_refl _),
      List.length_drop]
    simp only [messagesFor, Transport.width, headRoom, Letter.width, Word.size]
    omega
  rw [posts, List.countP_cons, further, if_pos across, countP_flagged]
  simp only [none, SendFlags.standard]
  split
  · rw [if_neg (by omega)]
    rfl
  · rw [if_pos (by omega)]
    rfl

/-! ### The result -/

/-- A byte string went on the way, whole. -/
structure Conveyed (data : List UInt8) (now now' : Moment Stream σ) : Prop where
  isOpen : now.self.closed = false
  /-- However often there was no room, its messages were transmitted once each, in order, and
  nothing else was. -/
  posted : ∃ sent, Posted now.self.transport data sent ∧
    Transmits (carrier now) sent (carrier now')
  /-- The kernel counts one more message that waits for its receiver, or none. -/
  counted : Transport.Uncounted now.turns → now'.scene.machine.kernel.syncSends =
    now.scene.machine.kernel.syncSends +
      if now.self.transport.isEndpoint = true ∧ 24 < data.length then 1 else 0

/-- The endpoint of a stream that is open and has a peer refused one of the messages of a byte
string, for a fault that was planned. The messages before it were transmitted. -/
structure Interrupted (ep : Endpoint) (data : List UInt8) (now now' : Moment Stream σ) : Prop where
  isOpen : now.self.closed = false
  peered : ep.peer ≠ none
  planned : ∃ sent refused rest mid, Posted now.self.transport data (sent ++ refused :: rest) ∧
    Transmits (carrier now) sent mid ∧
    (mid.scene.machine.nextFault (.endpoint ep.home .send)).1 = some .notConnected ∧
    Transmits (carrier now) sent (carrier now')

/-- A send that returns has transmitted the byte string whole. One that fails as closed has
done nothing, and so has one that fails as not connected, unless the endpoint has a peer and
refused one of the messages all the same. -/
theorem send_transmits (data : List UInt8) (now : Moment Stream σ) :
    Task.Ends (Stream.send data now) (fun _ now' => Conveyed data now now') fun stop now' =>
      (stop = .failed .closed → now' = now) ∧
      (stop = .failed .notConnected → ∃ ep, now.self.transport = .endpoint ep ∧
        ((ep.peer = none ∧ now' = now) ∨ Interrupted ep data now now')) := by
  refine (ends_streamSend_posts data now).mono ?_ ?_
  · rintro _ now' ⟨isOpen, wide, transmits⟩
    refine ⟨isOpen, ⟨_, posted_posts wide data, transmits⟩, fun uncounted => ?_⟩
    refine (transmits.syncSends uncounted).trans (congrArg _ ?_)
    change (if now.self.transport.isEndpoint then _ else 0) = _
    by_cases across : now.self.transport.isEndpoint = true
    · rw [if_pos across, countP_posts across]
      simp [across]
    · rw [if_neg across, if_neg fun both => across both.1]
  · rintro stop now' ends
    constructor
    · rintro rfl
      obtain ⟨rfl, -⟩ | ⟨-, -, sent, refused, rest, mid, -, -, unsent⟩ := ends _ rfl
      · rfl
      · exact (unsent.isOpen rfl).elim
    · rintro rfl
      obtain ⟨rfl, unpeered⟩ |
        ⟨isOpen, peered, sent, refused, rest, mid, posts_eq, before, unsent⟩ := ends _ rfl
      · obtain ⟨ep, across, none⟩ := unpeered rfl
        exact ⟨ep, across, .inl ⟨none, rfl⟩⟩
      · obtain ⟨ep, refusing, known, idle, cause⟩ := unsent.unconnected rfl
        have across : now.self.transport = .endpoint ep := (before.endpoint_iff ep).mp known
        have wide := Transport.one_le_width_endpoint ep
        rw [← across] at wide
        have whole := posted_posts wide data
        rw [posts_eq] at whole
        refine ⟨ep, across, .inr ⟨isOpen, peered ep across, sent, refused, rest, refusing, whole,
          ?_, cause.resolve_left (peered ep across), ?_⟩⟩
        · simpa using before.append idle
        · simpa using before.append unsent.nothing

/-- The kernel lets the first message of an endpoint through, and says of the second that it
is not connected. -/
def interrupted : Moment Stream Unit where
  self := (Line.planned ⟨0⟩ .send [none, some .notConnected]).speaker.stream
  scene := ⟨(Line.planned ⟨0⟩ .send [none, some .notConnected]).machine, ()⟩
  turns := []

/-- The first of two messages reaches the peer although the send fails. -/
theorem interrupted_send_transmits : ∃ now' : Moment Stream Unit,
    interrupted.self.closed = false ∧
    Stream.send (List.replicate 30 7) interrupted = .error (.failed .notConnected) now' ∧
    interrupted.scene.machine.kernel.waiting ⟨1⟩ = [] ∧
    (now'.scene.machine.kernel.waiting ⟨1⟩).map (·.words.toList) =
      [headWords 4 (List.replicate 30 7)] := by
  have ran : (Task.failure? (Stream.send (List.replicate 30 7) interrupted)).map (fun ended =>
      (ended.1, (ended.2.scene.machine.kernel.waiting ⟨1⟩).map (·.words.toList))) =
      some (.notConnected, [headWords 4 (List.replicate 30 7)]) := by decide +kernel
  obtain ⟨⟨e, now'⟩, failed, same⟩ := Option.map_eq_some_iff.mp ran
  obtain ⟨rfl, waiting⟩ := Prod.mk.inj same
  exact ⟨now', rfl, Task.failure?_eq_some failed, rfl, waiting⟩

/-- There is room for one message at a time, and the peer takes one while the sender waits. -/
def crowded : Moment Stream Unit where
  self := interrupted.self
  scene := ⟨(Endpoint.createPair (Machine.create 1)).2, ()⟩
  turns := [fun scene => .ok () ⟨(Endpoint.recv { home := ⟨1⟩ } scene.machine).2, ()⟩]

example : (Task.success? (Stream.send (List.replicate 30 7) crowded)).map (fun ended =>
      (ended.2.scene.machine.kernel.syncSends,
        (ended.2.scene.machine.kernel.waiting ⟨1⟩).map (·.words.toList))) =
    some (1, tailWords 4 (List.replicate 30 7)) := by decide +kernel

end Stream

end Conduit

/-
# Calls that are refused

A call is checked before its request is sent: whether a reply is owed, whether the type is known
and the arguments are of its kinds, whether the transport carries them, and whether they can be
written. `Refused` lists why a call is refused, each reason after those that come before it.
A call that is refused has no effect but on the bytes of the page that its strings go into
(`Refused.fails`), and a call that is not refused sends its request (`sends_of_not_refused`).

Over an endpoint the page may still have to be set up, which takes a request and its reply
(`equipped_of_ok`). Only then the arguments are written, and if they cannot be, then nothing more
is sent, the page is kept, and no reply is owed (`refused_calls_change_nothing`).
-/

import Conduit.Proofs.Call.Calling
import Conduit.Proofs.Call.Conduct.Registry
import Conduit.Proofs.Call.RoundTrip

namespace Conduit.Rpc

open Mark (needsPage)

variable {η σ : Type} {now mid : Moment (Rpc η) σ} {t : MessageType} {args : List Value}
  {binding : Binding} {e : Error}

/-- The moment with other contents of the memory. -/
def rewritten (now : Moment (Rpc η) σ) (memory : Memory) : Moment (Rpc η) σ :=
  { now with scene := { now.scene with machine := { now.scene.machine with memory } } }

/-- No reply is owed, the type is known, and the arguments are of its kinds. -/
structure Admits (now : Moment (Rpc η) σ) (t : MessageType) (args : List Value)
    (binding : Binding) : Prop where
  idle : now.self.awaiting = none
  bound : now.self.binding? t = some binding
  kinds : args.map Value.kind = binding.args

/-- Why a call is refused before anything is sent. -/
inductive Refused (now : Moment (Rpc η) σ) (t : MessageType) (args : List Value) : Error → Prop
  /-- A reply is owed. -/
  | outstanding (owed : now.self.awaiting ≠ none) : Refused now t args .callInProgress
  /-- The type is not known. -/
  | unbound (idle : now.self.awaiting = none) (unknown : now.self.binding? t = none) :
      Refused now t args (.unknownBinding t)
  /-- The arguments are of other kinds. -/
  | mismatch {binding : Binding} (idle : now.self.awaiting = none)
      (bound : now.self.binding? t = some binding) (other : args.map Value.kind ≠ binding.args) :
      Refused now t args (.argMismatch t)
  /-- Capabilities do not travel in slots. -/
  | capability {binding : Binding} {chan : SlotChannel} (admits : Admits now t args binding)
      (across : now.self.transport = .slots chan) (carries : binding.usesCaps = true) :
      Refused now t args .notImplemented
  /-- The arguments do not fit a slot. -/
  | inline {binding : Binding} {chan : SlotChannel} {e : Error} (admits : Admits now t args binding)
      (across : now.self.transport = .slots chan) (capless : binding.usesCaps = false)
      (offends : Inline.Offends chan.payloadWords args e) : Refused now t args e
  /-- The strings do not fit the page, which is there if one is needed. -/
  | paged {binding : Binding} {ep : Endpoint} {e : Error} (admits : Admits now t args binding)
      (across : now.self.transport = .endpoint ep)
      (ready : binding.usesStrings = false ∨ (now.self.page? t .near).isSome = true)
      (offends : Paged.Offends t (now.self.page? t .near) args e) : Refused now t args e

/-- The call fails like this from a moment on, and all that changes are bytes of the page for its
strings. -/
def FailsFrom (mid now : Moment (Rpc η) σ) (t : MessageType) (args : List Value) (e : Error) :
    Prop :=
  ∃ memory, Paged.InPage (mid.self.page? t .near) mid.scene.machine.memory memory ∧
    call t args now = .error (.failed e) (rewritten mid memory)

/-! ### The checks -/

/-- A request is written and sent, and its reply is read. -/
def exchange (t : MessageType) (args : List Value) (kinds : List Kind) :
    Task (Rpc η) σ (List Value) := do
  let request ← encode t t.code args .near
  let reply ← transact t request
  decode t kinds reply .near

theorem needsPage_eq (bound : now.self.binding? t = some binding) : needsPage now.self t =
    (now.self.transport.isEndpoint && binding.usesStrings &&
      (now.self.page? t .near).isNone) := by
  rw [needsPage, bound]

/-- A page is set up over an endpoint, for strings, if it is not there yet. -/
theorem needsPage_iff (bound : now.self.binding? t = some binding) :
    needsPage now.self t = true ↔ now.self.transport.isEndpoint = true ∧
      binding.usesStrings = true ∧ now.self.page? t .near = none := by
  rw [needsPage_eq bound, Bool.and_eq_true, Bool.and_eq_true, Option.isNone_iff_eq_none, and_assoc]

/-- What is left of a call once it is admitted. -/
theorem call_admitted (admits : Admits now t args binding) : call t args now = (do
    if !now.self.transport.isEndpoint && binding.usesCaps then Task.fail .notImplemented
    if needsPage now.self t then preparePage t
    exchange t args binding.rets) now := by
  have idle : now.self.isOutstanding = false := isOutstanding_eq_false.mpr admits.idle
  have checked : Value.check t binding.args args = .ok () := if_pos admits.kinds
  unfold call
  rw [Task.self_bind, needsPage_eq admits.bound]
  simp only [idle, Bool.false_eq_true, if_false, admits.bound, checked, Task.ofExcept, pure_bind]
  rfl

theorem call_ready (admits : Admits now t args binding) (ready : needsPage now.self t = false)
    (carried : now.self.transport.isEndpoint = true ∨ binding.usesCaps = false) :
    call t args now = exchange t args binding.rets now := by
  have carried : (!now.self.transport.isEndpoint && binding.usesCaps) = false := by
    rcases carried with across | capless
    · rw [across]
      rfl
    · rw [capless, Bool.and_false]
  rw [call_admitted admits]
  simp only [carried, ready, Bool.false_eq_true, if_false]

theorem call_unready (admits : Admits now t args binding) (needs : needsPage now.self t = true) :
    call t args now = (preparePage t >>= fun _ => exchange t args binding.rets) now := by
  have across := ((needsPage_iff admits.bound).mp needs).1
  rw [call_admitted admits]
  simp only [across, needs, Bool.not_true, Bool.false_and, Bool.false_eq_true, if_false, if_true]

/-! ### Writing the arguments -/

theorem encode_slots {chan : SlotChannel} (across : now.self.transport = .slots chan)
    (t : MessageType) (tag : UInt64) (args : List Value) : encode t tag args .near now =
      (Task.ofExcept (Inline.encode tag args chan.payloadWords) : Task (Rpc η) σ Message) now := by
  unfold encode
  rw [Task.self_bind, across]

theorem encode_endpoint {ep : Endpoint} (across : now.self.transport = .endpoint ep) {tag : UInt64}
    {result : Except Error Message} {memory : Memory}
    (ran : Paged.encode t tag args (now.self.page? t .near) now.scene.machine.memory =
      .ok (result, memory)) : encode t tag args .near now =
        (Task.ofExcept result : Task (Rpc η) σ Message) (rewritten now memory) := by
  unfold encode
  rw [Task.self_bind, across]
  simp only [Task.machine_bind, ran, Task.orPanic_ok, pure_bind, Task.setMachine_bind]
  rfl

/-- An exchange fails before its request is sent if the request cannot be written. -/
theorem exchange_refused {kinds : List Kind} {after : Moment (Rpc η) σ}
    (refused : encode t t.code args .near now = .error (.failed e) after) :
    exchange t args kinds now = .error (.failed e) after := Task.bind_error refused

theorem exchange_written {kinds : List Kind} {request : Message} {after : Moment (Rpc η) σ}
    (written : encode t t.code args .near now = .ok request after) :
    exchange t args kinds now =
      (transact t request >>= fun reply => decode t kinds reply .near) after :=
  Task.bind_ok written

/-- The strings before the first that does not fit the page are left in it. -/
theorem exchange_offended {ep : Endpoint} (across : now.self.transport = .endpoint ep)
    (simple : Binding.fits (args.map Value.kind) = true)
    (mapped : Mapped now.scene.machine.memory (now.self.page? t .near))
    (offends : Paged.Offends t (now.self.page? t .near) args e) (kinds : List Kind) : ∃ memory,
      Paged.InPage (now.self.page? t .near) now.scene.machine.memory memory ∧
      exchange t args kinds now = .error (.failed e) (rewritten now memory) := by
  have held := fun view known => (mapped view known).1
  obtain ⟨before, after, -, tidy, ran⟩ := Paged.encode_offended simple held t.code offends
  exact ⟨_, tidy.inPage held, exchange_refused (encode_endpoint across ran)⟩

/-! ### Nothing happened -/

theorem failsFrom_now (ran : call t args now = .error (.failed e) now) :
    FailsFrom now now t args e :=
  ⟨now.scene.machine.memory, .refl _ _, ran⟩

theorem call_unbound (idle : now.self.awaiting = none) (unknown : now.self.binding? t = none) :
    call t args now = .error (.failed (.unknownBinding t)) now := by
  have idle : now.self.isOutstanding = false := isOutstanding_eq_false.mpr idle
  unfold call
  rw [Task.self_bind]
  simp only [idle, Bool.false_eq_true, if_false, unknown]
  rfl

theorem call_mismatched (idle : now.self.awaiting = none)
    (bound : now.self.binding? t = some binding) (other : args.map Value.kind ≠ binding.args) :
    call t args now = .error (.failed (.argMismatch t)) now := by
  have idle : now.self.isOutstanding = false := isOutstanding_eq_false.mpr idle
  have checked : Value.check t binding.args args = .error (.argMismatch t) := if_neg other
  unfold call
  rw [Task.self_bind]
  simp only [idle, Bool.false_eq_true, if_false, bound, checked]
  rfl

theorem call_capability {chan : SlotChannel} (admits : Admits now t args binding)
    (across : now.self.transport = .slots chan) (carries : binding.usesCaps = true) :
    call t args now = .error (.failed .notImplemented) now := by
  rw [call_admitted admits, across, carries]
  rfl

theorem needsPage_eq_false (bound : now.self.binding? t = some binding)
    (ready : binding.usesStrings = false ∨ (now.self.page? t .near).isSome = true) :
    needsPage now.self t = false := by
  rw [needsPage_eq bound]
  rcases ready with plain | present
  · rw [plain, Bool.and_false, Bool.false_and]
  · rw [Option.isNone_eq_false_iff.mpr present, Bool.and_false]

theorem needsPage_slots {chan : SlotChannel} (bound : now.self.binding? t = some binding)
    (across : now.self.transport = .slots chan) : needsPage now.self t = false := by
  rw [needsPage_eq bound, across]
  rfl

namespace InOrder

theorem simple (inOrder : InOrder now) (admits : Admits now t args binding) :
    Binding.fits (args.map Value.kind) = true := by
  have simple := inOrder.accepted t binding admits.bound
  rw [Binding.isSimple, Bool.and_eq_true] at simple
  rw [admits.kinds]
  exact simple.1

end InOrder

/-- A call that is refused has no effect but on the bytes of the page. -/
theorem Refused.fails (inOrder : InOrder now) (refused : Refused now t args e) :
    FailsFrom now now t args e := by
  cases refused with
  | outstanding owed =>
      exact failsFrom_now (call_refused (isOutstanding_iff.mpr owed) t args)
  | unbound idle unknown => exact failsFrom_now (call_unbound idle unknown)
  | mismatch idle bound other => exact failsFrom_now (call_mismatched idle bound other)
  | capability admits across carries => exact failsFrom_now (call_capability admits across carries)
  | @inline binding chan e admits across capless offends =>
      have refused := encode_slots across t t.code args
      rw [Inline.encode_offended offends] at refused
      refine failsFrom_now ?_
      rw [call_ready admits (needsPage_slots admits.bound across) (.inr capless)]
      exact exchange_refused refused
  | @paged binding ep e admits across ready offends =>
      obtain ⟨memory, inPage, ran⟩ := exchange_offended across
        (inOrder.simple admits) (inOrder.sound.pages t .near) offends binding.rets
      refine ⟨memory, inPage, ?_⟩
      rw [call_ready admits (needsPage_eq_false admits.bound ready) (.inl (by rw [across]; rfl))]
      exact ran

/-! ### Calls that are made -/

/-- The call goes on from a moment by sending its request, with its strings in the page for them,
and by reading the reply. -/
def SendsFrom (mid now : Moment (Rpc η) σ) (t : MessageType) (args : List Value) : Prop :=
  ∃ binding request memory, Admits now t args binding ∧ request.tag = t.code ∧
    Paged.InPage (mid.self.page? t .near) mid.scene.machine.memory memory ∧
    call t args now =
      (transact t request >>= fun reply => decode t binding.rets reply .near) (rewritten mid memory)

/-- Strings that fit the page are written into it, and the request is sent. -/
theorem exchange_tidy {ep : Endpoint} (across : now.self.transport = .endpoint ep)
    (simple : Binding.fits (args.map Value.kind) = true)
    (mapped : Mapped now.scene.machine.memory (now.self.page? t .near))
    (tidy : Paged.Tidy (now.self.page? t .near) args) (kinds : List Kind) :
    ∃ request memory, request.tag = t.code ∧
      Paged.InPage (now.self.page? t .near) now.scene.machine.memory memory ∧
      exchange t args kinds now =
        (transact t request >>= fun reply => decode t kinds reply .near) (rewritten now memory) := by
  obtain ⟨request, ran, -⟩ := Paged.laid_of_tidy t t.code tidy simple mapped
  exact ⟨request, _, Paged.tag_encode ran, tidy.inPage fun view known => (mapped view known).1,
    exchange_written (encode_endpoint across ran)⟩

theorem admits_of_not_refused (free : ∀ e, ¬ Refused now t args e) :
    ∃ binding, Admits now t args binding := by
  have idle : now.self.awaiting = none := by
    by_contra owed
    exact free _ (.outstanding owed)
  cases bound : now.self.binding? t with
  | none => exact (free _ (.unbound idle bound)).elim
  | some binding =>
      have kinds : args.map Value.kind = binding.args := by
        by_contra other
        exact free _ (.mismatch idle bound other)
      exact ⟨binding, idle, bound, kinds⟩

/-- A call that needs no page any more is made if it is not refused. -/
theorem sends_of_not_refused (inOrder : InOrder now) (ready : needsPage now.self t = false)
    (free : ∀ e, ¬ Refused now t args e) : SendsFrom now now t args := by
  obtain ⟨binding, admits⟩ := admits_of_not_refused free
  cases across : now.self.transport with
  | slots chan =>
      have capless : binding.usesCaps = false := by
        rw [← Bool.not_eq_true]
        exact fun carries => free _ (.capability admits across carries)
      have one : 1 ≤ chan.payloadWords :=
        Nat.le_sub_of_add_le (inOrder.sound.panes chan across).sends.room
      have fits : Inline.Fits chan.payloadWords args :=
        Inline.fits_of_not_offends one fun e offends =>
          free e (.inline admits across capless offends)
      obtain ⟨request, encoded⟩ :
          ∃ request, Inline.encode t.code args chan.payloadWords = .ok request :=
        ⟨_, Inline.encode_eq fits⟩
      have written := encode_slots across t t.code args
      rw [encoded] at written
      refine ⟨binding, request, now.scene.machine.memory, admits, Inline.tag_encode encoded,
        .refl _ _, ?_⟩
      rw [call_ready admits ready (.inr capless)]
      exact exchange_written written
  | endpoint ep =>
      have ready' : binding.usesStrings = false ∨ (now.self.page? t .near).isSome = true := by
        rw [needsPage_eq admits.bound, across] at ready
        simpa [Transport.isEndpoint, or_iff_not_imp_left] using ready
      have tidy : Paged.Tidy (now.self.page? t .near) args :=
        Paged.tidy_of_not_offends t fun e offends => free e (.paged admits across ready' offends)
      obtain ⟨request, memory, tagged, inPage, ran⟩ := exchange_tidy across
        (inOrder.simple admits) (inOrder.sound.pages t .near) tidy binding.rets
      refine ⟨binding, request, memory, admits, tagged, inPage, ?_⟩
      rw [call_ready admits ready (.inl (by rw [across]; rfl))]
      exact ran

/-! ### The page is set up first -/

/-- What was done where the set-up of a page returned. -/
theorem preparePage_ok (ran : preparePage t now = .ok () mid) : ∃ frame page m reply last,
    m.kernel.waiting = now.scene.machine.kernel.waiting ∧
    transact setupPage (setupRequest t now.self.pageSize frame)
        { now with scene := { now.scene with machine := m } } = .ok reply last ∧
    mid = { last with self := { last.self with
      entries := last.self.entries.modify t ({ · with nearPage := some page }) } } := by
  unfold preparePage at ran
  rw [Task.self_bind] at ran
  obtain ⟨answer, _, allocated, ran⟩ := Task.ok_of_bind ran
  obtain ⟨m, granted, rfl⟩ := Task.of_onMachine_ok allocated
  cases answer with
  | error e => cases ran
  | ok frame =>
      simp only [pure_bind] at ran
      obtain ⟨page, _, shown, ran⟩ := Task.ok_of_bind ran
      obtain ⟨-, rfl⟩ := Task.of_request_ok shown
      simp only [Task.machine_bind, encode_setupRequest, Task.orPanic_ok, pure_bind,
        Task.setMachine_bind, Task.ofExcept] at ran
      obtain ⟨reply, last, transacted, ran⟩ := Task.ok_of_bind ran
      cases ran
      exact ⟨frame, page, (m.callMapFrame frame).2, reply, last,
        (Machine.waiting_callMapFrame m frame).trans (Machine.waiting_callAllocFrame granted),
        transacted, rfl⟩

section Equipped

variable [Handler η σ]

/-- An endpoint stays an endpoint. -/
theorem isEndpoint_of_step {before after : Moment Transport σ} {events : List Event}
    (step : Transport.Step before events after) :
    after.self.isEndpoint = before.self.isEndpoint := by
  have calm : ∀ {p q : Transport} {m m' : Machine}, Transport.Calm p m q m' →
      q.isEndpoint = p.isEndpoint := by
    rintro p q m m' (_ | _) <;> rfl
  have sends : ∀ {message : Message} {p q : Transport} {m m' : Machine},
      Transport.Sends message p m q m' → q.isEndpoint = p.isEndpoint := by
    rintro message p q m m' (_ | _) <;> rfl
  have takes : ∀ {message : Message} {p q : Transport} {m m' : Machine},
      Transport.Takes message p m q m' → q.isEndpoint = p.isEndpoint := by
    rintro message p q m m' (_ | _) <;> rfl
  cases step with
  | pass paused => rw [Task.self_of_pause paused]
  | calm still => exact calm still
  | send message sent => exact sends sent
  | take message taken => exact takes taken

theorem isEndpoint_of_traced {events : List Event} (trace : Traced Move now events mid) :
    mid.self.transport.isEndpoint = now.self.transport.isEndpoint := by
  induction trace with
  | nil => rfl
  | next _ last ih =>
      rw [← ih]
      cases last with
      | carry step => exact isEndpoint_of_step step
      | record transport => exact congrArg Transport.isEndpoint transport
      | answer => rfl

/-- What is there where the page for the calls of a type was set up: one request was sent, one
reply was taken, no reply is owed, and nothing of the party changed but its transport and the
page. -/
structure Equipped (t : MessageType) (now mid : Moment (Rpc η) σ) : Prop where
  messages : ∃ events frame reply, Traced Move now events mid ∧
    sentIn events = [setupRequest t now.self.pageSize frame] ∧
    receivedIn events = [reply] ∧ reply.tag = setupPage.responseTag
  party : ∃ page, mid.self.page? t .near = some page ∧ mid.self = { now.self with
    transport := mid.self.transport
    entries := now.self.entries.modify t ({ · with nearPage := some page }) }
  idle : mid.self.awaiting = none

theorem equipped_of_ok (bound : now.self.binding? t = some binding)
    (idle : now.self.awaiting = none) (needs : needsPage now.self t = true)
    (ran : preparePage t now = .ok () mid) : Equipped t now mid := by
  obtain ⟨across, -, missing⟩ := (needsPage_iff bound).mp needs
  obtain ⟨frame, page, m, reply, last, still, transacted, rfl⟩ := preparePage_ok ran
  obtain ⟨entry, known, -⟩ := Option.map_eq_some_iff.mp bound
  have same : SameBut now.self last.self := by
    have leads : Leads unbound (transact setupPage (setupRequest t now.self.pageSize frame))
        (.prepared t frame page) { now with scene := { now.scene with machine := m } } _ _ :=
      leads_ask page idle missing
    obtain ⟨-, -, -, -, same⟩ := leads.of_ok transacted
    exact same
  have entries : last.self.entries = now.self.entries := by rw [same]
  constructor
  · obtain ⟨events, trace, replies, sent, received⟩ := (goes_transact _ _ _).of_ok transacted
    have gets : Traced Move now [] { now with scene := { now.scene with machine := m } } :=
      .single (move_calm across still)
    have records : Move last [] { last with self := { last.self with
        entries := last.self.entries.modify t ({ · with nearPage := some page }) } } :=
      .record rfl rfl
    exact ⟨_, frame, reply, (gets.append trace).append (.single records), by simpa using sent,
      by simpa using received, replies⟩
  · refine ⟨page, ?_, ?_⟩
    · simp only [page?, entries, Table.get?_modify, known]
      rfl
    · rw [entries, same]
  · exact same.awaiting.trans idle

theorem Equipped.across (equipped : Equipped t now mid)
    (across : now.self.transport.isEndpoint = true) : ∃ ep, mid.self.transport = .endpoint ep := by
  obtain ⟨events, frame, reply, trace, -⟩ := equipped.messages
  have endpoint : mid.self.transport.isEndpoint = true := (isEndpoint_of_traced trace).trans across
  cases known : mid.self.transport with
  | endpoint ep => exact ⟨ep, rfl⟩
  | slots chan =>
      rw [known] at endpoint
      cases endpoint

theorem inOrder_of_ok (inOrder : InOrder now) (bound : now.self.binding? t = some binding)
    (idle : now.self.awaiting = none) (needs : needsPage now.self t = true)
    (ran : preparePage t now = .ok () mid) : InOrder mid := by
  obtain ⟨across, -, missing⟩ := (needsPage_iff bound).mp needs
  have leads : Leads unbound (preparePage t) .free now _ _ :=
    leads_preparePage across idle missing
  obtain ⟨events, last, course, rfl, -⟩ := leads.of_ok ran
  exact {
    accepted := inOrder.accepted.course course
    sound := Sound.course course (fun _ _ may => may) inOrder.lawful inOrder.sound
    lawful := fun turn mem => inOrder.lawful turn (Course.turns_subset course mem) }

end Equipped

/-- A call that is refused has no effect but on the bytes of the page for its strings: nothing is
sent or taken, nothing is asked of the kernel, nobody else acts, and the party is as it was. Any
other call that needs no page to be set up sends its request. If the page has to be set up, then
that is done by one request and its reply, of which nothing is left but the page, before the
arguments are written; and then they decide as before whether anything more is sent. -/
theorem refused_calls_change_nothing [Handler η σ] (inOrder : InOrder now) (t : MessageType)
    (args : List Value) :
    (∀ e, Refused now t args e → FailsFrom now now t args e) ∧
    (needsPage now.self t = false → (∀ e, ¬ Refused now t args e) → SendsFrom now now t args) ∧
    (needsPage now.self t = true → ∀ binding, Admits now t args binding →
      (∀ stop mid, preparePage t now = .error stop mid → call t args now = .error stop mid) ∧
      ∀ mid, preparePage t now = .ok () mid → Equipped t now mid ∧
        (∀ e, Paged.Offends t (mid.self.page? t .near) args e → FailsFrom mid now t args e) ∧
        ((∀ e, ¬ Paged.Offends t (mid.self.page? t .near) args e) →
          SendsFrom mid now t args)) := by
  refine ⟨fun e refused => refused.fails inOrder, sends_of_not_refused inOrder, ?_⟩
  intro needs binding admits
  have unready := call_unready admits needs
  refine ⟨fun stop mid ran => unready.trans (Task.bind_error ran), fun mid ran => ?_⟩
  have equipped := equipped_of_ok admits.bound admits.idle needs ran
  have inOrder' := inOrder_of_ok inOrder admits.bound admits.idle needs ran
  obtain ⟨ep, across⟩ : ∃ ep, mid.self.transport = .endpoint ep :=
    equipped.across ((needsPage_iff admits.bound).mp needs).1
  have simple := inOrder.simple admits
  have mapped := inOrder'.sound.pages t .near
  refine ⟨equipped, fun e offends => ?_, fun free => ?_⟩
  · obtain ⟨memory, inPage, refused⟩ :=
      exchange_offended across simple mapped offends binding.rets
    exact ⟨memory, inPage, unready.trans ((Task.bind_ok ran).trans refused)⟩
  · obtain ⟨request, memory, tagged, inPage, sent⟩ :=
      exchange_tidy across simple mapped (Paged.tidy_of_not_offends t free) binding.rets
    exact ⟨binding, request, memory, admits, tagged, inPage,
      unready.trans ((Task.bind_ok ran).trans sent)⟩

/-! ### A string that is refused once its page is there -/

/-- A party that knows a call with a string, whose pages have eight bytes. -/
def caller : Rpc Tally :=
  { recipient with
    entries := recipient.entries.insert ⟨10⟩ { binding := ⟨⟨10⟩, [.str], []⟩ }
    pageSize := 8 }

theorem reached_caller : Reached caller (⟨ready, ()⟩ : Scene Unit) := by
  have none : ∀ turn ∈ ([] : List (Turn Unit)), Turn.Follows Sustained turn := fun _ mem =>
    absurd mem List.not_mem_nil
  have registers : Task.settle (Operation.perform (.register ⟨⟨10⟩, [.str], []⟩))
      ⟨recipient, (⟨ready, ()⟩ : Scene Unit), []⟩ =
        .ok (.ok ()) ⟨{ caller with pageSize := recipient.pageSize }, ⟨ready, ()⟩, []⟩ := rfl
  have chooses : Task.settle (Operation.perform (.setPageSize 8))
      ⟨{ caller with pageSize := recipient.pageSize }, (⟨ready, ()⟩ : Scene Unit), []⟩ =
        .ok (.ok ()) ⟨caller, ⟨ready, ()⟩, []⟩ := rfl
  have registered := Reached.did reached_ready (fun _ same => by cases same) none registers
  exact .did registered (fun _ same => by cases same) none chooses

/-- The peer says that it has mapped the page. -/
def grant : Turn Unit := fun scene =>
  .ok () { scene with
    machine := scene.machine.posted ⟨1⟩ [setupReply.letter] SendFlags.standard }

theorem lawful_grant : Turn.Follows Sustained grant := fun _ => Sustains.of_grows (.refl _) rfl

/-- The page is set up for a string that has a zero byte, and then nothing more is sent. -/
theorem refused_calls_change_nothing_late :
    ∃ mid, InOrder (⟨caller, ⟨ready, ()⟩, [grant]⟩ : Moment (Rpc Tally) Unit) ∧
      preparePage ⟨10⟩ ⟨caller, ⟨ready, ()⟩, [grant]⟩ = .ok () mid ∧
      Equipped ⟨10⟩ ⟨caller, ⟨ready, ()⟩, [grant]⟩ mid ∧
      FailsFrom mid ⟨caller, ⟨ready, ()⟩, [grant]⟩ ⟨10⟩ [.str "a\u0000b"] (.argMismatch ⟨10⟩) := by
  have inOrder : InOrder (⟨caller, ⟨ready, ()⟩, [grant]⟩ : Moment (Rpc Tally) Unit) :=
    reached_caller.inOrder (wanders_tally _) fun turn mem => by
      rw [List.mem_singleton.mp mem]
      exact lawful_grant
  have returns : (Task.success? (preparePage ⟨10⟩
      (⟨caller, ⟨ready, ()⟩, [grant]⟩ : Moment (Rpc Tally) Unit))).isSome = true := by
    decide +kernel
  obtain ⟨⟨⟨⟩, mid⟩, returned⟩ := Option.isSome_iff_exists.mp returns
  have ran := Task.success?_eq_some returned
  obtain ⟨-, -, late⟩ := refused_calls_change_nothing inOrder ⟨10⟩ [.str "a\u0000b"]
  obtain ⟨-, late⟩ := late (by decide +kernel) ⟨⟨10⟩, [.str], []⟩ ⟨rfl, rfl, rfl⟩
  obtain ⟨equipped, fails, -⟩ := late mid ran
  refine ⟨mid, inOrder, ran, equipped, fails _ ?_⟩
  obtain ⟨page, there, -⟩ := equipped.party
  have zero : 0 ∈ Utf8.encode "a\u0000b" := by decide
  rw [there]
  exact ⟨[], _, [], rfl, Paged.tidy_nil _, fun tidy => tidy.1 _ List.mem_cons_self zero, rfl⟩

end Conduit.Rpc

/-
# The mark of an owed reply

A party keeps a mark of the call whose reply is owed. An exchange of messages that
breaks off because another message came in place of the reply leaves the mark behind;
every other end of it takes the mark away (`ends_transact`). So does a call, whose
exchange may come after one that sets up a page (`ends_call`).

An exchange fails for a foreign message only, and a call that may not be made fails for
that reason only: no other part of a call fails in either way (`Error.owes`).
-/

import Conduit.Proofs.Call.Standing

namespace Conduit

/-- A call that fails in this way leaves a reply owed. -/
def Error.owes : Error → Bool
  | .unexpectedReply _ _ => true
  | .callInProgress => true
  | _ => false

theorem Error.owes_ofChannel (cause : ChannelError) : (Error.ofChannel cause).owes = false := by
  cases cause <;> rfl

/-! ### Messages -/

/-- If this is a failure, no reply is owed on account of it. -/
def Plain {α : Type} (result : Except Error α) : Prop := ∀ e, result = .error e → e.owes = false

/-- If there is no panic, the result is as in `holds`. -/
def Yields {α : Type} (holds : α → Prop) (result : Except Panic α) : Prop :=
  ∀ a, result = .ok a → holds a

section Results

variable {α β : Type} {holds : β → Prop}

theorem plain_ok (a : α) : Plain (.ok a : Except Error α) := by
  intro e same
  cases same

theorem plain_error {e : Error} (plain : e.owes = false) :
    Plain (.error e : Except Error α) := by
  intro e' same
  cases same
  exact plain

theorem Plain.map {result : Except Error α} (plain : Plain result) (f : α → β) :
    Plain (result.map f) := by
  cases result with
  | ok a => exact plain_ok _
  | error e => exact plain_error (plain e rfl)

theorem yields_ok {b : β} (here : holds b) : Yields holds (.ok b) := by
  intro b' same
  cases same
  exact here

theorem Yields.bind {known : α → Prop} {result : Except Panic α} {next : α → Except Panic β}
    (first : Yields known result) (later : ∀ a, known a → Yields holds (next a)) :
    Yields holds (result >>= next) := by
  cases result with
  | error cause =>
      intro b same
      cases same
  | ok a => exact later a (first a rfl)

theorem yields_any (result : Except Panic α) : Yields (fun _ => True) result := fun _ _ => trivial

end Results

theorem plain_check (t : MessageType) (kinds : List Kind) (values : List Value) :
    Plain (Value.check t kinds values) := by
  unfold Value.check
  split
  · exact plain_ok _
  · exact plain_error rfl

namespace Paged

theorem plain_push (d : Draft) (w : UInt64) : Plain (d.push w) := by
  unfold Draft.push
  split
  · exact plain_ok _
  · exact plain_error rfl

theorem plain_add (t : MessageType) (page : Option View) (value : Value) (d : Draft) (m : Memory) :
    Yields (fun added => Plain added.1) (add t page value d m) := by
  cases value with
  | word w => exact yields_ok (plain_push d w)
  | cap c =>
      simp only [add]
      split
      · exact yields_ok (plain_ok _)
      · exact yields_ok (plain_error rfl)
  | str s =>
      simp only [add]
      split
      · exact yields_ok (plain_error rfl)
      · split
        · exact yields_ok (plain_error rfl)
        · refine (yields_any _).bind fun put _ => ?_
          split
          · exact yields_ok ((plain_push _ _).map _)
          · exact yields_ok (plain_error rfl)

theorem plain_addAll (t : MessageType) (page : Option View) (values : List Value) (d : Draft)
    (m : Memory) : Yields (fun added => Plain added.1) (addAll t page values d m) := by
  induction values generalizing d m with
  | nil => exact yields_ok (plain_ok d)
  | cons value rest ih =>
      refine (plain_add t page value d m).bind ?_
      rintro ⟨e | d', m'⟩ plain
      · exact yields_ok (plain_error (plain e rfl))
      · exact ih d' m'

theorem plain_encode (t : MessageType) (tag : UInt64) (values : List Value) (page : Option View)
    (m : Memory) : Yields (fun encoded => Plain encoded.1) (encode t tag values page m) :=
  (plain_addAll t page values _ m).bind fun _ plain => yields_ok (plain.map _)

theorem plain_read (t : MessageType) (page : Option View) (m : Memory) (kinds : List Kind)
    (words : List UInt64) (cap : Option Cap) : Yields Plain (read t page m kinds words cap) := by
  induction kinds generalizing words cap with
  | nil => exact yields_ok (plain_ok [])
  | cons kind kinds ih =>
      cases kind with
      | word =>
          cases words with
          | nil => exact yields_ok (plain_error rfl)
          | cons w words => exact (ih words cap).bind fun _ plain => yields_ok (plain.map _)
      | cap =>
          cases cap with
          | none => exact yields_ok (plain_error rfl)
          | some c => exact (ih words none).bind fun _ plain => yields_ok (plain.map _)
      | str =>
          cases words with
          | nil => exact yields_ok (plain_error rfl)
          | cons w words =>
              cases page with
              | none => exact yields_ok (plain_error rfl)
              | some view =>
                  refine (yields_any _).bind fun bytes _ => ?_
                  split
                  · exact yields_ok (plain_error rfl)
                  · exact (ih words cap).bind fun _ plain => yields_ok (plain.map _)

end Paged

namespace Inline

theorem plain_addAll (width : Nat) (values : List Value) (words : List UInt64) :
    Plain (addAll width values words) := by
  induction values generalizing words with
  | nil => exact plain_ok words
  | cons value rest ih =>
      cases value with
      | word w =>
          simp only [addAll]
          split
          · exact ih _
          · exact plain_error rfl
      | str s =>
          simp only [addAll]
          split
          · exact plain_error rfl
          · exact ih _
      | cap c => exact plain_error rfl

theorem plain_encode (tag : UInt64) (values : List Value) (width : Nat) :
    Plain (encode tag values width) := by
  unfold encode
  cases added : addAll width values [tag] with
  | ok words => exact plain_ok _
  | error e => exact plain_error (plain_addAll width values [tag] e added)

theorem plain_read (t : MessageType) (kinds : List Kind) (words : List UInt64) :
    Plain (read t kinds words) := by
  induction kinds generalizing words with
  | nil => exact plain_ok []
  | cons kind kinds ih =>
      cases kind with
      | word =>
          cases words with
          | nil => exact plain_error rfl
          | cons w words => exact (ih words).map _
      | str =>
          cases words with
          | nil => exact plain_error rfl
          | cons length words =>
              simp only [read]
              split
              · exact plain_error rfl
              · split
                · exact plain_error rfl
                · exact (ih _).map _
      | cap => exact plain_error rfl

end Inline

/-! ### Tasks without such failures -/

/-- No failure of the task leaves a reply owed. -/
abbrev Task.OwesNothing {δ σ α : Type} (task : Task δ σ α) : Prop :=
  Task.FailsOnly (fun e => e.owes = false) task

namespace Transport

variable {σ : Type}

/-- Trying to send fails only if the kernel refuses to. -/
theorem failsOnly_offer {p : Error → Prop} (refusals : ∀ cause, p (Error.ofChannel cause))
    (message : Message) (flags : SendFlags) :
    Task.FailsOnly p (offer message flags : Task Transport σ (Option Unit)) := by
  refine .bind .self fun transport => ?_
  cases transport with
  | endpoint ep =>
      refine .bind (.asking _) ?_
      rintro (cause | u)
      · cases cause <;> first | exact .pure _ | exact .fail (refusals _)
      · exact .pure _
  | slots chan =>
      refine .bind .machine fun _ => .bind (.orPanic _) fun sent => .bind (.setMachine _) fun _ =>
        .bind (.setSelf _) ?_
      intro u
      rcases sent with ⟨_ | _ | _, _, _⟩
      · exact .pure _
      · exact .pure _
      · exact .pure _

theorem owesNothing_send (message : Message) (flags : SendFlags) :
    (send message flags : Task Transport σ Unit).OwesNothing := by
  refine .bind .self fun transport => ?_
  cases transport with
  | endpoint ep => exact .await (failsOnly_offer Error.owes_ofChannel message flags)
  | slots chan =>
      simp only
      split
      · exact .fail_bind rfl
      · split
        · exact .fail_bind rfl
        · exact .await (failsOnly_offer Error.owes_ofChannel message flags)

/-- So does receiving. -/
theorem failsOnly_receive {p : Error → Prop} (refusals : ∀ cause, p (Error.ofChannel cause)) :
    Task.FailsOnly p (receive : Task Transport σ (Option Message)) := by
  refine .bind .self fun transport => ?_
  cases transport with
  | endpoint ep =>
      refine .bind (.awaitAnswer (.asking _)) ?_
      rintro (cause | letter)
      · cases cause <;> first | exact .pure _ | exact .fail (refusals _)
      · simp only
        split
        · exact .bind (.request refusals) fun _ => .pure _
        · exact .pure _
  | slots chan =>
      exact .bind .machine fun _ => .bind (.orPanic _) fun _ => .bind (.setMachine _) fun _ =>
        .bind (.setSelf _) fun _ => .pure _

/-- Looking whether a message is waiting never fails. -/
theorem failsOnly_canReceive {p : Error → Prop} :
    Task.FailsOnly p (canReceive : Task Transport σ Bool) := by
  refine .bind .self fun transport => ?_
  cases transport with
  | endpoint ep => exact .bind .machine fun _ => .pure _
  | slots chan => exact .bind .machine fun _ => .orPanic _

end Transport

namespace Rpc

variable {η σ α : Type} {t : MessageType} {now : Moment (Rpc η) σ}

theorem owesNothing_encode (t : MessageType) (tag : UInt64) (values : List Value) (side : Side) :
    (encode t tag values side : Task (Rpc η) σ Message).OwesNothing := by
  intro now
  unfold encode
  rw [Task.self_bind]
  cases now.self.transport with
  | slots chan => exact Task.FailsOnly.ofExcept (Inline.plain_encode _ _ _) now
  | endpoint ep =>
      simp only [Task.machine_bind]
      cases encoded : Paged.encode t tag values (now.self.page? t side) now.scene.machine.memory with
      | error cause => exact Task.FailsOnly.halt (.panicked cause) now
      | ok result =>
          obtain ⟨message, memory⟩ := result
          exact Task.FailsOnly.ofExcept (Paged.plain_encode _ _ _ _ _ _ encoded) _

theorem owesNothing_decode (t : MessageType) (kinds : List Kind) (message : Message) (side : Side) :
    (decode t kinds message side : Task (Rpc η) σ (List Value)).OwesNothing := by
  intro now
  unfold decode
  rw [Task.self_bind]
  cases now.self.transport with
  | slots chan => exact Task.FailsOnly.ofExcept (Inline.plain_read t kinds _) now
  | endpoint ep =>
      simp only [Task.machine_bind]
      cases decoded : Paged.decode t kinds message (now.self.page? t side)
          now.scene.machine.memory with
      | error cause => exact Task.FailsOnly.halt (.panicked cause) now
      | ok values => exact Task.FailsOnly.ofExcept (Paged.plain_read _ _ _ _ _ _ _ decoded) now

namespace Mark

/-! ### Exchanges and calls -/

/-- The party after a call of type `t` that stopped: the reply to it is owed if another
message came instead, and otherwise nothing is. -/
def BrokeOff (t : MessageType) (stop : Stop) (rpc : Rpc η) : Prop :=
  match stop with
  | .failed (.unexpectedReply expected _) => expected = t.responseTag ∧ rpc.awaiting = some t
  | .failed e => e.owes = false ∧ rpc.awaiting = none
  | .halted _ => True

theorem brokeOff_of_plain {e : Error} {rpc : Rpc η} (plain : e.owes = false)
    (unmarked : rpc.awaiting = none) : BrokeOff t (.failed e) rpc := by
  cases e with
  | unexpectedReply expected got => cases plain
  | _ => exact ⟨plain, unmarked⟩

/-- A part of a call that neither leaves a reply owed nor touches the mark. -/
theorem ends_quiet {task : Task (Rpc η) σ α} (plain : task.OwesNothing)
    (keeps : Task.KeepsSelf (fun rpc => rpc.awaiting = none) task)
    (unmarked : now.self.awaiting = none) (t : MessageType) :
    Task.Ends (task now) (fun _ now' => now'.self.awaiting = none)
      fun stop now' => BrokeOff t stop now'.self := by
  refine ((plain now).and (keeps now unmarked)).mono (fun _ _ both => both.2) ?_
  rintro (e | h) now' ⟨only, kept⟩
  · exact brokeOff_of_plain (only e rfl) kept
  · trivial

/-- The mark alone is kept by what keeps all that serving leaves alone. -/
theorem keepsUnmarked {task : Task (Rpc η) σ α} (keeps : ∀ rpc, KeepsAlike rpc task) :
    Task.KeepsSelf (fun rpc => rpc.awaiting = none) task := fun now unmarked =>
  (keeps now.self now (.refl _)).mono (fun _ _ alike => alike.awaiting.trans unmarked)
    fun _ _ alike => alike.awaiting.trans unmarked

theorem owesNothing_transmit (message : Message) :
    (transmit message : Task (Rpc η) σ Unit).OwesNothing := by
  unfold transmit onTransport
  exact .within (Transport.owesNothing_send message _)

/-- A task of the transport leaves the mark alone. -/
theorem ends_onTransport {p : Error → Prop} {task : Task Transport σ α}
    (only : Task.FailsOnly p task) {mark : Option MessageType} (marked : now.self.awaiting = mark) :
    Task.Ends (onTransport task now) (fun _ now' => now'.self.awaiting = mark)
      fun stop now' => (∀ e, stop = .failed e → p e) ∧ now'.self.awaiting = mark := by
  refine ((only.within now).and (keepsAlike_onTransport task now (.refl now.self))).mono ?_ ?_
  · rintro a now' ⟨-, alike⟩
    exact alike.awaiting.trans marked
  · rintro stop now' ⟨fails, alike⟩
    exact ⟨fails, alike.awaiting.trans marked⟩

/-- Looking for the reply takes the mark away if it fails. -/
theorem ends_pollReply (marked : now.self.awaiting = some t) :
    Task.Ends (pollReply now) (fun _ now' => now'.self.awaiting = some t)
      fun stop now' => BrokeOff t stop now'.self := by
  unfold pollReply
  apply Task.ends_bind
  refine (ends_onTransport (p := fun _ => False) Transport.failsOnly_canReceive marked).mono ?_ ?_
  · rintro (_ | _) now' marked
    · exact marked
    · apply Task.ends_bind
      apply Task.ends_settle
      have plain : (Transport.receive : Task Transport σ (Option Message)).OwesNothing :=
        Transport.failsOnly_receive Error.owes_ofChannel
      refine (ends_onTransport plain marked).mono
        (fun _ _ marked => marked) ?_
      rintro (e | h) now' ⟨only, -⟩
      · exact brokeOff_of_plain (only e rfl) rfl
      · trivial
  · rintro (e | h) now' ⟨never, -⟩
    · exact (never e rfl).elim
    · trivial

theorem ends_await (marked : now.self.awaiting = some t) :
    Task.Ends (Task.await pollReply now) (fun _ now' => now'.self.awaiting = some t)
      fun stop now' => BrokeOff t stop now'.self := by
  have among : Task.Among (fun _ _ => True) (fun rpc _ => rpc.awaiting = some t) now :=
    ⟨marked, fun _ _ _ => trivial⟩
  refine Task.ends_await _ ?_ ?_ (fun _ _ _ => trivial) among
  · intro now among
    refine (ends_pollReply among.here).mono ?_ fun _ _ broke => broke
    rintro (_ | reply) now' marked
    · exact ⟨marked, fun _ _ _ => trivial⟩
    · exact marked
  · exact fun rpc scene scene' marked _ => marked

/-- An exchange leaves the mark behind if a message came that is not the reply, and in no
other case. -/
theorem ends_transact (unmarked : now.self.awaiting = none) (t : MessageType)
    (request : Message) :
    Task.Ends (transact t request now) (fun _ now' => now'.self.awaiting = none)
      fun stop now' => BrokeOff t stop now'.self := by
  unfold transact
  apply Task.ends_bind
  refine (ends_quiet (owesNothing_transmit request)
    (keepsUnmarked fun _ => keepsAlike_transmit request) unmarked t).mono ?_ fun _ _ broke => broke
  intro _ now _
  rw [Task.modifySelf_bind]
  apply Task.ends_bind
  refine (ends_await rfl).mono ?_ fun _ _ broke => broke
  intro reply now marked
  by_cases same : reply.tag = t.responseTag
  · rw [if_neg fun differs => differs same]
    rfl
  · rw [if_pos same]
    exact ⟨rfl, marked⟩

/-- Setting up a page is an exchange of its own. -/
theorem ends_preparePage (unmarked : now.self.awaiting = none) (t : MessageType) :
    Task.Ends (preparePage t now) (fun _ now' => now'.self.awaiting = none)
      fun stop now' => BrokeOff setupPage stop now'.self := by
  unfold preparePage
  rw [Task.self_bind]
  apply Task.ends_bind
  refine (ends_quiet (.onMachine _) (.onMachine _) unmarked setupPage).mono ?_
    fun _ _ broke => broke
  rintro (e | frame) now unmarked
  · exact brokeOff_of_plain (Error.owes_ofChannel e) unmarked
  apply Task.ends_bind
  apply Task.ends_bind
  refine (ends_quiet (.request Error.owes_ofChannel) (.request _) unmarked setupPage).mono ?_
    fun _ _ broke => broke
  intro page now unmarked
  rw [Task.machine_bind]
  cases encoded : Paged.encode setupPage setupPage.code _ none now.scene.machine.memory with
  | error cause => trivial
  | ok result =>
      obtain ⟨e | request, memory⟩ := result
      · exact brokeOff_of_plain (Paged.plain_encode _ _ _ _ _ _ encoded e rfl) unmarked
      · simp only [Task.orPanic_ok, Task.ofExcept, pure_bind, Task.setMachine_bind]
        apply Task.ends_bind
        refine (ends_transact ?_ setupPage request).mono ?_ fun _ _ broke => broke
        · exact unmarked
        · exact fun reply now unmarked => unmarked

/-- The first call of a type whose strings travel through a page sets up the page. -/
def needsPage (rpc : Rpc η) (t : MessageType) : Bool :=
  match rpc.binding? t with
  | none => false
  | some binding =>
      rpc.transport.isEndpoint && binding.usesStrings && (rpc.page? t .near).isNone

/-- The call stopped where it sets up a page. -/
def StopsInSetup (t : MessageType) (now : Moment (Rpc η) σ) (stop : Stop)
    (now' : Moment (Rpc η) σ) : Prop :=
  needsPage now.self t = true ∧ preparePage t now = .error stop now'

/-- How a call may stop that was allowed to be made. -/
def CallBrokeOff (t : MessageType) (now : Moment (Rpc η) σ) (stop : Stop)
    (now' : Moment (Rpc η) σ) : Prop :=
  (StopsInSetup t now stop now' → BrokeOff setupPage stop now'.self) ∧
    (¬ StopsInSetup t now stop now' → BrokeOff t stop now'.self)

theorem callBrokeOff_of_plain {now' : Moment (Rpc η) σ} {e : Error} (plain : e.owes = false)
    (unmarked : now'.self.awaiting = none) : CallBrokeOff t now (.failed e) now' :=
  ⟨fun _ => brokeOff_of_plain plain unmarked, fun _ => brokeOff_of_plain plain unmarked⟩

/-- Once what a call needs is there, it sends its request and reads the reply. -/
theorem ends_exchange (unmarked : now.self.awaiting = none) (t : MessageType) (args : List Value)
    (kinds : List Kind) :
    Task.Ends ((do
        let request ← encode t t.code args .near
        let reply ← transact t request
        decode t kinds reply .near) now)
      (fun _ now' => now'.self.awaiting = none) fun stop now' => BrokeOff t stop now'.self := by
  apply Task.ends_bind
  refine (ends_quiet (owesNothing_encode t t.code args .near)
    (keepsUnmarked fun _ => keepsAlike_encode t t.code args .near) unmarked t).mono ?_
    fun _ _ broke => broke
  intro request now unmarked
  apply Task.ends_bind
  refine (ends_transact unmarked t request).mono ?_ fun _ _ broke => broke
  intro reply now unmarked
  exact ends_quiet (owesNothing_decode t kinds reply .near)
    (keepsUnmarked fun _ => keepsAlike_decode t kinds reply .near) unmarked t

/-- A call that may be made leaves no mark behind, unless another message came in place of
a reply: of its own, or of the exchange that sets up its page. -/
theorem ends_call (unmarked : now.self.awaiting = none) (t : MessageType) (args : List Value) :
    Task.Ends (call t args now) (fun _ now' => now'.self.awaiting = none)
      (CallBrokeOff t now) := by
  have idle : now.self.isOutstanding = false := by
    unfold isOutstanding
    rw [unmarked]
    rfl
  unfold call
  rw [Task.self_bind]
  simp only [idle, Bool.false_eq_true, if_false]
  cases bound : now.self.binding? t with
  | none => exact callBrokeOff_of_plain rfl unmarked
  | some binding =>
      simp only
      cases checked : Value.check t binding.args args with
      | error e => exact callBrokeOff_of_plain (plain_check _ _ _ e checked) unmarked
      | ok u =>
          simp only [Task.ofExcept, pure_bind]
          split
          · exact callBrokeOff_of_plain rfl unmarked
          · split
            · rename_i needs
              have needs : needsPage now.self t = true := by
                unfold needsPage
                rw [bound]
                exact needs
              cases prepared : preparePage t now with
              | error stop now' =>
                  have ends := ends_preparePage unmarked t
                  rw [prepared] at ends
                  rw [Task.bind_error prepared]
                  exact ⟨fun _ => ends, fun outside => (outside ⟨needs, prepared⟩).elim⟩
              | ok u now' =>
                  have ends := ends_preparePage unmarked t
                  rw [prepared] at ends
                  rw [Task.bind_ok prepared]
                  refine (ends_exchange ends t args binding.rets).mono (fun _ _ kept => kept) ?_
                  refine fun stop now'' broke => ⟨fun setup => ?_, fun _ => broke⟩
                  cases prepared.symm.trans setup.2
            · rename_i needless
              refine (ends_exchange unmarked t args binding.rets).mono (fun _ _ kept => kept) ?_
              refine fun stop now'' broke => ⟨fun setup => ?_, fun _ => broke⟩
              have needs := setup.1
              unfold needsPage at needs
              rw [bound] at needs
              exact (needless needs).elim

end Mark

end Rpc

end Conduit

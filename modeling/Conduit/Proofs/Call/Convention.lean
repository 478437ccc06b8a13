/-
# The simple convention

A binding is simple if its values travel in one message: at most three words or strings and one
capability in each direction (`Binding.Simple`). Writing values of such kinds runs out neither of
words nor of places for a capability, and reading them from a message of an endpoint does not
either. So over a capability channel an operation on simple bindings does not fail for the
convention (`Conforms`), unless a handler says so itself.

* `Paged.supported_encode`, `Paged.supported_read` — one message.
* `ends_call_conforms` — calls.
* `ends_serveOne_declined` — serving a message.
-/

import Conduit.Proofs.Call.Refusals
import Conduit.Proofs.Stream.Width

namespace Conduit

/-! ### Bindings -/

namespace Binding

/-- At most three words or strings and one capability travel in each direction. -/
structure Simple (b : Binding) : Prop where
  args : b.args.count .word + b.args.count .str ≤ 3
  argCaps : b.args.count .cap ≤ 1
  rets : b.rets.count .word + b.rets.count .str ≤ 3
  retCaps : b.rets.count .cap ≤ 1

/-- The number of words that values of these kinds take. -/
def wordCount (kinds : List Kind) : Nat := kinds.count .word + kinds.count .str

section Counting

variable (kinds : List Kind)

@[simp] theorem wordCount_word : wordCount (.word :: kinds) = wordCount kinds + 1 := by
  simp [wordCount, Nat.add_right_comm]

@[simp] theorem wordCount_str : wordCount (.str :: kinds) = wordCount kinds + 1 := by
  simp [wordCount, Nat.add_assoc]

@[simp] theorem wordCount_cap : wordCount (.cap :: kinds) = wordCount kinds := by
  simp [wordCount]

theorem length_kinds : kinds.length = wordCount kinds + kinds.count .cap := by
  induction kinds with
  | nil => rfl
  | cons kind kinds ih =>
      rw [List.length_cons, ih]
      cases kind with
      | word => simp [Nat.add_right_comm]
      | str => simp [Nat.add_right_comm]
      | cap => simp [Nat.add_assoc]

theorem fits_iff : fits kinds = true ↔ wordCount kinds ≤ 3 ∧ kinds.count .cap ≤ 1 := by
  have words : valueWords = 3 := rfl
  rw [fits, Bool.and_eq_true, decide_eq_true_eq, decide_eq_true_eq, length_kinds, words,
    Nat.add_sub_cancel]

end Counting

theorem isSimple_iff (b : Binding) : b.isSimple = true ↔ b.Simple := by
  rw [isSimple, Bool.and_eq_true, fits_iff, fits_iff]
  constructor
  · rintro ⟨⟨args, argCaps⟩, rets, retCaps⟩
    exact ⟨args, argCaps, rets, retCaps⟩
  · rintro ⟨args, argCaps, rets, retCaps⟩
    exact ⟨⟨args, argCaps⟩, rets, retCaps⟩

end Binding

/-! ### One message -/

/-- The result is as in `holds`, or it is a failure for another reason than the convention. -/
def Supported {α : Type} (holds : α → Prop) : Except Error α → Prop
  | .ok a => holds a
  | .error e => e ≠ .notImplemented

/-- Any result will do. -/
abbrev Any {α : Type} (_ : α) : Prop := True

theorem Supported.map {α β : Type} {holds : α → Prop} {result : Except Error α}
    (supported : Supported holds result) (f : α → β) : Supported Any (result.map f) := by
  cases result with
  | ok a => trivial
  | error e => exact supported

theorem supported_check (t : MessageType) (kinds : List Kind) (values : List Value) :
    Supported (fun _ => values.map Value.kind = kinds) (Value.check t kinds values) := by
  unfold Value.check
  split
  · assumption
  · exact (by simp : Error.argMismatch t ≠ .notImplemented)

namespace Paged

variable {d : Draft} {value : Value} {rest values : List Value}

/-- There is room for the values in the draft, if their strings can be written. -/
structure Roomy (d : Draft) (values : List Value) : Prop where
  words : d.words.length + wordsOf values ≤ Letter.width
  caps : d.cap.toList.length + capsOf values ≤ 1

theorem Roomy.push (roomy : Roomy d (value :: rest)) (other : value.kind ≠ .cap) (w : UInt64) :
    ∃ d', d.push w = .ok d' ∧ ∀ offset, Roomy { d' with offset } rest := by
  obtain ⟨words, caps⟩ := roomy
  have one : wordsOf (value :: rest) = wordsOf rest + 1 := by simp [wordsOf, other]
  have none : capsOf (value :: rest) = capsOf rest := by simp [capsOf, other]
  rw [one] at words
  rw [none] at caps
  have room : d.words.length < Letter.width := by omega
  refine ⟨_, if_pos room, fun _ => ⟨?_, caps⟩⟩
  rw [List.length_append, List.length_singleton]
  omega

/-- A value for which there is room is added, or it is a string that cannot be written. -/
theorem supported_add (t : MessageType) (page : Option View) (m : Memory)
    (roomy : Roomy d (value :: rest)) :
    Yields (fun added => Supported (Roomy · rest) added.1) (add t page value d m) := by
  cases value with
  | word w =>
      obtain ⟨d', pushed, roomy⟩ := roomy.push (by simp [Value.kind]) w
      rw [add, pushed]
      exact yields_ok (roomy d'.offset)
  | cap c =>
      obtain ⟨words, caps⟩ := roomy
      rw [wordsOf_cap] at words
      rw [capsOf_cap] at caps
      cases free : d.cap with
      | some other =>
          rw [free, Option.toList_some, List.length_singleton] at caps
          omega
      | none =>
          simp only [add, free]
          refine yields_ok ⟨words, ?_⟩
          rw [Option.toList_some, List.length_singleton]
          omega
  | str s =>
      cases page with
      | none => exact yields_ok (by simp : Error.noBufferPage t ≠ .notImplemented)
      | some view =>
          simp only [add]
          by_cases zero : (Utf8.encode s).contains 0 = true
          · rw [if_pos zero]
            exact yields_ok (by simp : Error.argMismatch t ≠ .notImplemented)
          · rw [if_neg zero]
            refine (yields_any _).bind ?_
            rintro ⟨_ | _, m'⟩ -
            · exact yields_ok (by simp : Error.stringTooLong ≠ .notImplemented)
            · obtain ⟨d', pushed, roomy⟩ :=
                roomy.push (by simp [Value.kind]) (UInt64.ofNat d.offset)
              simp only [pushed]
              exact yields_ok (roomy _)

theorem supported_addAll (t : MessageType) (page : Option View) (m : Memory)
    (roomy : Roomy d values) :
    Yields (fun added => Supported Any added.1) (addAll t page values d m) := by
  induction values generalizing d m with
  | nil => exact yields_ok trivial
  | cons value rest ih =>
      refine (supported_add t page m roomy).bind ?_
      rintro ⟨e | d', m'⟩ supported
      · exact yields_ok supported
      · exact ih m' supported

theorem supported_encode (t : MessageType) (tag : UInt64)
    (simple : Binding.fits (values.map Value.kind) = true) (page : Option View) (m : Memory) :
    Yields (fun encoded => Supported Any encoded.1) (encode t tag values page m) := by
  obtain ⟨words, caps⟩ := (fits_iff values).mp simple
  have roomy : Roomy { words := [tag] } values := by
    have width : Binding.valueWords + 1 = Letter.width := rfl
    refine ⟨?_, ?_⟩
    · rw [List.length_singleton, ← width]
      omega
    · rw [Option.toList_none, List.length_nil]
      omega
  exact (supported_addAll t page m roomy).bind fun _ supported => yields_ok (supported.map _)

/-- As many words as values of these kinds take are enough to read them. -/
theorem supported_read (t : MessageType) (page : Option View) (m : Memory) (kinds : List Kind)
    (words : List UInt64) (cap : Option Cap)
    (enough : Binding.wordCount kinds ≤ words.length) :
    Yields (Supported Any) (read t page m kinds words cap) := by
  induction kinds generalizing words cap with
  | nil => exact yields_ok trivial
  | cons kind kinds ih =>
      cases kind with
      | cap =>
          cases cap with
          | none => exact yields_ok (by simp : Error.argMismatch t ≠ .notImplemented)
          | some c =>
              rw [Binding.wordCount_cap] at enough
              exact (ih words none enough).bind fun _ supported => yields_ok (supported.map _)
      | word =>
          cases words with
          | nil => simp at enough
          | cons w words =>
              rw [Binding.wordCount_word, List.length_cons, Nat.add_le_add_iff_right] at enough
              exact (ih words cap enough).bind fun _ supported => yields_ok (supported.map _)
      | str =>
          cases words with
          | nil => simp at enough
          | cons w words =>
              rw [Binding.wordCount_str, List.length_cons, Nat.add_le_add_iff_right] at enough
              cases page with
              | none => exact yields_ok (by simp : Error.noBufferPage t ≠ .notImplemented)
              | some view =>
                  refine (yields_any _).bind fun bytes _ => ?_
                  split
                  · exact yields_ok (by simp : Error.argMismatch t ≠ .notImplemented)
                  · exact (ih words cap enough).bind fun _ supported =>
                      yields_ok (supported.map _)

/-- A message of an endpoint has three words besides its tag. -/
theorem supported_decode (t : MessageType) {kinds : List Kind} {message : Message}
    (simple : Binding.fits kinds = true) (full : message.words.length = Letter.width)
    (page : Option View) (m : Memory) :
    Yields (Supported Any) (decode t kinds message page m) := by
  have width : Letter.width = 4 := rfl
  refine supported_read t page m kinds _ _ ?_
  rw [List.length_tail, full, width]
  exact ((Binding.fits_iff _).mp simple).1

end Paged

/-! ### Tasks over a capability channel -/

variable {σ : Type}

namespace Transport

theorem keepsEndpoint_offer {ep : Endpoint} (message : Message) (flags : SendFlags) :
    Task.KeepsSelf (· = Transport.endpoint ep) (offer message flags : Task Transport σ _) := by
  intro now across
  unfold offer
  rw [Task.self_bind, across]
  have asked : Task.KeepsSelf (· = Transport.endpoint ep)
      (Task.asking (ep.send flags ⟨Letter.fit message.words, message.cap⟩) :
        Task Transport σ _) := fun _ same => same
  refine Task.KeepsSelf.bind asked (fun answer => ?_) now across
  rcases answer with cause | _
  · cases cause with
    | transient => exact .pure _
    | _ => exact .fail _
  · exact .pure _

end Transport

theorem Error.ofChannel_ne_notImplemented (cause : ChannelError) :
    Error.ofChannel cause ≠ .notImplemented := by
  cases cause <;> exact nofun

namespace Rpc

variable {η α β : Type} {now : Moment (Rpc η) σ} {holds : α → Prop}

/-- Over a capability channel the task ends over one, with a result as in `holds`, or it fails
for another reason than the convention. -/
def Conforms (holds : α → Prop) (task : Task (Rpc η) σ α) : Prop :=
  ∀ now, now.self.transport.isEndpoint = true → Task.Ends (task now)
    (fun a now' => now'.self.transport.isEndpoint = true ∧ holds a)
    fun stop _ => stop ≠ .failed .notImplemented

namespace Conforms

protected theorem pure {a : α} (here : holds a) : Conforms holds (pure a : Task (Rpc η) σ α) :=
  fun _ across => ⟨across, here⟩

theorem fail {e : Error} (other : e ≠ .notImplemented) :
    Conforms holds (Task.fail e : Task (Rpc η) σ α) := by
  intro now _ same
  cases same
  exact other rfl

/-- Nothing is done after a failure. -/
theorem fail_bind {e : Error} {next : β → Task (Rpc η) σ α} (other : e ≠ .notImplemented) :
    Conforms holds (Task.fail e >>= next) := by
  intro now _ same
  cases same
  exact other rfl

theorem halt (h : Halt) : Conforms holds (Task.halt h : Task (Rpc η) σ α) := fun _ _ => nofun

protected theorem bind {known : α → Prop} {holds : β → Prop} {task : Task (Rpc η) σ α}
    {next : α → Task (Rpc η) σ β} (first : Conforms known task)
    (later : ∀ a, known a → Conforms holds (next a)) : Conforms holds (task >>= next) := by
  intro now across
  apply Task.ends_bind
  exact (first now across).mono (fun a now' ended => later a ended.2 now' ended.1)
    fun _ _ other => other

theorem ofExcept {result : Except Error α} (supported : Supported holds result) :
    Conforms holds (Task.ofExcept result : Task (Rpc η) σ α) := by
  cases result with
  | ok a => exact .pure supported
  | error e => exact .fail supported

theorem orPanic {result : Except Panic α} (yields : Yields holds result) :
    Conforms holds (Task.orPanic result : Task (Rpc η) σ α) := by
  cases result with
  | ok a => exact .pure (yields a rfl)
  | error cause => exact .halt _

/-- A task that keeps the transport, whatever it fails for, if not for the convention. -/
theorem of_keeps {task : Task (Rpc η) σ α}
    (keeps : Task.KeepsSelf (fun rpc => rpc.transport.isEndpoint = true) task)
    (only : Task.FailsOnly (· ≠ .notImplemented) task) : Conforms Any task := by
  intro now across
  refine ((keeps now across).and (only now)).mono (fun _ _ ended => ended) ?_
  rintro stop now' ⟨-, other⟩ rfl
  exact other _ rfl rfl

/-- No refusal of the kernel is one for the convention. -/
theorem request (use : Machine → Except ChannelError α × Machine) :
    Conforms Any (Task.request use : Task (Rpc η) σ α) :=
  .of_keeps (.request use) (.request Error.ofChannel_ne_notImplemented)

/-- The transport need only do so as an endpoint. -/
theorem onTransport {task : Task Transport σ α}
    (ends : ∀ (ep : Endpoint) (now : Moment Transport σ), now.self = .endpoint ep →
      Task.Ends (task now) (fun a now' => now'.self = .endpoint ep ∧ holds a)
        fun stop _ => stop ≠ .failed .notImplemented) :
    Conforms holds (Rpc.onTransport task : Task (Rpc η) σ α) := by
  intro now across
  obtain ⟨ep, same⟩ : ∃ ep, now.self.transport = .endpoint ep := by
    cases other : now.self.transport with
    | endpoint ep => exact ⟨ep, rfl⟩
    | slots chan =>
        rw [other] at across
        cases across
  apply Task.ends_within
  refine (ends ep _ same).mono ?_ fun _ _ other => other
  rintro a now' ⟨same, here⟩
  refine ⟨?_, here⟩
  change now'.self.isEndpoint = true
  rw [same]
  rfl

theorem await {poll : Task (Rpc η) σ (Option α)}
    (polls : Conforms (fun found => ∀ a ∈ found, holds a) poll) :
    Conforms holds (Task.await poll) := by
  intro now across
  refine Task.ends_polling (fun now => now.self.transport.isEndpoint = true) ?_ ?_
    (fun _ _ => nofun) across
  · intro now across
    refine (polls now across).mono ?_ fun _ _ other => other
    rintro (_ | a) now' ⟨across, here⟩
    · exact across
    · exact ⟨across, here a rfl⟩
  · intro now across
    refine (Conforms.of_keeps .pause .pause now across).mono ?_ fun _ _ other => other
    exact fun _ _ ended => ended.1

end Conforms

/-! ### Messages -/

/-- A task of the transport changes nothing else of the party. -/
theorem self_of_onTransport {task : Task Transport σ α} {a : α} {now' : Moment (Rpc η) σ}
    (ran : onTransport task now = .ok a now') :
    now'.self = { now.self with transport := now'.self.transport } := by
  unfold onTransport Task.within at ran
  split at ran
  · cases ran
    rfl
  · cases ran

theorem conforms_transmit (message : Message) :
    Conforms Any (transmit message : Task (Rpc η) σ Unit) := by
  refine .onTransport fun ep now across => ?_
  have keeps : Task.KeepsSelf (· = Transport.endpoint ep)
      (Task.await (Transport.offer message SendFlags.standard) : Task Transport σ Unit) :=
    .await (Transport.keepsEndpoint_offer message _)
  have only : Task.FailsOnly (· ≠ .notImplemented)
      (Task.await (Transport.offer message SendFlags.standard) : Task Transport σ Unit) :=
    .await (Transport.failsOnly_offer Error.ofChannel_ne_notImplemented message _)
  unfold Transport.send
  rw [Task.self_bind, across]
  refine ((keeps now across).and (only now)).mono (fun _ _ kept => ⟨kept.1, trivial⟩) ?_
  rintro stop now' ⟨-, other⟩ rfl
  exact other _ rfl rfl

theorem conforms_canReceive :
    Conforms Any (onTransport Transport.canReceive : Task (Rpc η) σ Bool) := by
  refine .onTransport fun ep now across => ?_
  unfold Transport.canReceive
  rw [Task.self_bind, across]
  exact ⟨across, trivial⟩

theorem conforms_receive :
    Conforms (fun taken => ∀ message ∈ taken, message.words.length = Letter.width)
      (onTransport Transport.receive : Task (Rpc η) σ (Option Message)) := by
  have only : Task.FailsOnly (· ≠ .notImplemented) (Transport.receive : Task Transport σ _) :=
    Transport.failsOnly_receive Error.ofChannel_ne_notImplemented
  refine .onTransport fun ep now across => ?_
  refine ((Transport.ends_receive_endpoint across).and (only now)).mono ?_ ?_
  · exact fun _ _ ended => ended.1
  rintro stop now' ⟨-, other⟩ rfl
  exact other _ rfl rfl

theorem conforms_encode (t : MessageType) (tag : UInt64) {values : List Value}
    (simple : Binding.fits (values.map Value.kind) = true) (side : Side) :
    Conforms Any (encode t tag values side : Task (Rpc η) σ Message) := by
  intro now across
  unfold encode
  rw [Task.self_bind]
  cases same : now.self.transport with
  | slots chan =>
      rw [same] at across
      cases across
  | endpoint ep =>
      simp only [Task.machine_bind]
      cases encoded : Paged.encode t tag values (now.self.page? t side)
          now.scene.machine.memory with
      | error cause => exact nofun
      | ok result =>
          obtain ⟨message, memory⟩ := result
          have supported := Paged.supported_encode t tag simple _ _ _ encoded
          exact Conforms.ofExcept supported _ across

/-- Reading a message changes nothing. -/
theorem ends_decode_simple (across : now.self.transport.isEndpoint = true) (t : MessageType)
    {kinds : List Kind} {message : Message} (simple : Binding.fits kinds = true)
    (full : message.words.length = Letter.width) (side : Side) :
    Task.Ends (decode t kinds message side now) (fun _ now' => now' = now)
      fun stop _ => stop ≠ .failed .notImplemented := by
  unfold decode
  rw [Task.self_bind]
  cases same : now.self.transport with
  | slots chan =>
      rw [same] at across
      cases across
  | endpoint ep =>
      simp only [Task.machine_bind]
      cases decoded : Paged.decode t kinds message (now.self.page? t side)
          now.scene.machine.memory with
      | error cause => exact nofun
      | ok values =>
          have supported := Paged.supported_decode t simple full _ _ _ decoded
          cases values with
          | ok values => rfl
          | error e =>
              intro same
              cases same
              exact supported rfl

theorem conforms_decode (t : MessageType) {kinds : List Kind} {message : Message}
    (simple : Binding.fits kinds = true) (full : message.words.length = Letter.width)
    (side : Side) : Conforms Any (decode t kinds message side : Task (Rpc η) σ (List Value)) := by
  intro now across
  refine (ends_decode_simple across t simple full side).mono ?_ fun _ _ other => other
  rintro _ now' rfl
  exact ⟨across, trivial⟩

/-! ### Calls -/

/-- The mark of an owed reply has nothing to do with the convention. -/
theorem conforms_mark (mark : Option MessageType) : Conforms Any
    (Task.modifySelf fun rpc => { rpc with awaiting := mark } : Task (Rpc η) σ Unit) :=
  fun _ across => ⟨across, trivial⟩

theorem conforms_pollReply :
    Conforms (fun found => ∀ reply ∈ found, reply.words.length = Letter.width)
      (pollReply : Task (Rpc η) σ (Option Message)) := by
  unfold pollReply
  refine .bind conforms_canReceive fun waiting _ => ?_
  split
  · intro now across
    apply Task.ends_bind
    apply Task.ends_settle
    refine (conforms_receive now across).mono (fun _ _ ended => ended) ?_
    rintro (e | h) now' other
    · exact fun same => other (by cases same; rfl)
    · exact nofun
  · exact .pure fun _ mem => by cases mem

theorem conforms_transact (t : MessageType) (request : Message) :
    Conforms (fun reply => reply.words.length = Letter.width)
      (transact t request : Task (Rpc η) σ Message) := by
  unfold transact
  refine .bind (conforms_transmit request) fun _ _ => ?_
  refine .bind (conforms_mark (some t)) fun _ _ => ?_
  refine .bind (.await conforms_pollReply) fun reply full => ?_
  split
  · exact .fail_bind nofun
  · exact .bind (conforms_mark none) fun _ _ => .pure full

/-- The request that sets up a page is simple. -/
theorem conforms_preparePage (t : MessageType) :
    Conforms Any (preparePage t : Task (Rpc η) σ Unit) := by
  unfold preparePage
  refine .bind (.of_keeps .self .self) fun rpc _ => ?_
  refine .bind (.of_keeps (.onMachine _) (.onMachine _)) fun granted _ => ?_
  rcases granted with cause | frame
  · exact .fail_bind (Error.ofChannel_ne_notImplemented cause)
  refine .bind (.of_keeps (.pure frame) (.pure frame)) fun frame _ => ?_
  refine .bind (.request _) fun page _ => ?_
  refine .bind (.of_keeps .machine .machine) fun m _ => ?_
  refine .bind (.orPanic (Paged.supported_encode setupPage setupPage.code rfl none m.memory)) ?_
  rintro ⟨message, memory⟩ supported
  refine .bind (.of_keeps (.setMachine _) (.setMachine _)) fun _ _ => ?_
  refine .bind (.ofExcept supported) fun request _ => ?_
  refine .bind (conforms_transact setupPage request) fun _ _ => ?_
  exact fun _ across => ⟨across, trivial⟩

theorem conforms_exchange (t : MessageType) {args : List Value} {kinds : List Kind}
    (simple : Binding.fits (args.map Value.kind) = true) (simpleRets : Binding.fits kinds = true) :
    Conforms Any (exchange t args kinds : Task (Rpc η) σ (List Value)) :=
  .bind (conforms_encode t t.code simple .near) fun request _ =>
    .bind (conforms_transact t request) fun _ full => conforms_decode t simpleRets full .near

/-- A call is refused at once, and over a capability channel not for the convention. Or it is
made, once its page is set up. -/
theorem refused_or_made (t : MessageType) (args : List Value) (now : Moment (Rpc η) σ) :
    (∃ e, call t args now = .error (.failed e) now ∧
      (now.self.transport.isEndpoint = true → e ≠ .notImplemented)) ∨
    ∃ binding, Admits now t args binding ∧ (call t args now = exchange t args binding.rets now ∨
      call t args now = (preparePage t >>= fun _ => exchange t args binding.rets) now) := by
  by_cases idle : now.self.awaiting = none
  case neg => exact .inl ⟨_, call_refused (isOutstanding_iff.mpr idle) t args, fun _ => nofun⟩
  cases bound : now.self.binding? t with
  | none => exact .inl ⟨_, call_unbound idle bound, fun _ => nofun⟩
  | some binding =>
      by_cases kinds : args.map Value.kind = binding.args
      case neg => exact .inl ⟨_, call_mismatched idle bound kinds, fun _ => nofun⟩
      have admits : Admits now t args binding := ⟨idle, bound, kinds⟩
      cases needs : Mark.needsPage now.self t with
      | true => exact .inr ⟨binding, admits, .inr (call_unready admits needs)⟩
      | false =>
          cases across : now.self.transport with
          | endpoint ep =>
              have carried : now.self.transport.isEndpoint = true := by rw [across]; rfl
              exact .inr ⟨binding, admits, .inl (call_ready admits needs (.inl carried))⟩
          | slots chan =>
              cases carries : binding.usesCaps with
              | false => exact .inr ⟨binding, admits, .inl (call_ready admits needs (.inr carries))⟩
              | true =>
                  exact .inl ⟨_, call_capability admits across carries, fun same => by cases same⟩

/-- A call does not fail for the convention, if all bindings are simple. -/
theorem ends_call_conforms (across : now.self.transport.isEndpoint = true)
    (accepted : Accepted now.self) (t : MessageType) (args : List Value) :
    Task.Ends (call t args now) (fun _ _ => True) fun stop _ => stop ≠ .failed .notImplemented := by
  rcases refused_or_made t args now with ⟨e, failed, other⟩ | ⟨binding, admits, made⟩
  · rw [failed]
    intro same
    cases same
    exact other across rfl
  · have simple := accepted t binding admits.bound
    rw [Binding.isSimple, Bool.and_eq_true, ← admits.kinds] at simple
    have exchanges := conforms_exchange (η := η) (σ := σ) t simple.1 simple.2
    have prepared : Conforms Any (preparePage t >>= fun _ => exchange t args binding.rets) :=
      .bind (conforms_preparePage t) fun _ _ => exchanges
    rcases made with same | same
    · rw [same]
      exact (exchanges now across).mono (fun _ _ _ => trivial) fun _ _ other => other
    · rw [same]
      exact (prepared now across).mono (fun _ _ _ => trivial) fun _ _ other => other

/-! ### Serving -/

theorem conforms_installPage (args : List Value) :
    Conforms Any (installPage args : Task (Rpc η) σ Unit) := by
  rcases args with _ | ⟨type, _ | ⟨size, _ | ⟨frame, rest⟩⟩⟩
  · exact .halt _
  · exact .halt _
  · exact .halt _
  simp only [installPage]
  rcases type.asWord with _ | type
  · exact .fail (by simp)
  rcases size.asWord with _ | size
  · exact .fail (by simp)
  rcases frame.asCap with _ | frame
  · exact .fail (by simp)
  intro now across
  simp only [Task.self_bind, across, Bool.not_true, Bool.false_eq_true, if_false]
  apply Task.ends_bind
  refine (Conforms.request _ now across).mono ?_ fun _ _ other => other
  rintro page now' ⟨across, -⟩
  by_cases short : size.toNat > page.bytes
  · rw [if_pos short]
    exact Conforms.fail_bind (by simp) now' across
  · rw [if_neg short, Task.self_bind]
    cases now'.self.entries.get? ⟨type⟩ with
    | none => exact Conforms.fail (by simp) now' across
    | some entry => exact ⟨across, trivial⟩

theorem conforms_adoptPeer (args : List Value) :
    Conforms Any (adoptPeer args : Task (Rpc η) σ Unit) := by
  unfold adoptPeer
  split
  · exact .halt _
  · split
    · exact .fail nofun
    · intro now across
      rw [Task.self_bind]
      cases same : now.self.transport with
      | endpoint ep => exact ⟨rfl, trivial⟩
      | slots chan =>
          rw [same] at across
          cases across

/-- What is left to do once a request is answered. -/
theorem conforms_reply (t : MessageType) {kinds : List Kind} (simple : Binding.fits kinds = true)
    (rets : List Value) (outcome : Dispatch) : Conforms Any (do
      Task.ofExcept (Value.check t kinds rets)
      let reply ← encode t t.responseTag rets .far
      transmit reply
      return outcome : Task (Rpc η) σ Dispatch) := by
  refine .bind (.ofExcept (supported_check t kinds rets)) fun _ same => ?_
  have simple : Binding.fits (rets.map Value.kind) = true := by rwa [same]
  exact .bind (conforms_encode t t.responseTag simple .far) fun reply _ =>
    .bind (conforms_transmit reply) fun _ _ => .pure trivial

section Serving

variable [Handler η σ]

/-- A handler that is asked with these arguments says that it does not do that. -/
def Declines (now : Moment (Rpc η) σ) (t : MessageType) (args : List Value) : Prop :=
  ∃ handler last, now.self.handlers.get? t = some handler ∧
    Handler.respond args ⟨handler, now.scene, now.turns⟩ = .error (.failed .notImplemented) last

theorem ends_answer_declines (across : now.self.transport.isEndpoint = true) (t : MessageType)
    (args : List Value) :
    Task.Ends (answer t args now) (fun _ now' => now'.self.transport.isEndpoint = true)
      fun stop _ => stop = .failed .notImplemented → Declines now t args := by
  unfold answer
  rw [Task.self_bind]
  cases known : now.self.handlers.get? t with
  | none => exact nofun
  | some handler =>
      apply Task.ends_within
      cases ran : Handler.respond args ⟨handler, now.scene, now.turns⟩ with
      | ok rets last => exact across
      | error stop last =>
          rintro rfl
          exact ⟨handler, last, known, ran⟩

/-- A request is refused for the convention only by its handler. -/
theorem ends_serveRequest_declines (across : now.self.transport.isEndpoint = true)
    {binding : Binding} (simple : binding.isSimple = true) {request : Message}
    (full : request.words.length = Letter.width) (t : MessageType) :
    Task.Ends (serveRequest binding request t now) (fun _ _ => True) fun stop _ =>
      stop = .failed .notImplemented →
        ∃ args, decode t binding.args request .far now = .ok args now ∧ Declines now t args := by
  rw [Binding.isSimple, Bool.and_eq_true] at simple
  unfold serveRequest
  have read := ends_decode_simple across t simple.1 full .far
  cases decoded : decode t binding.args request .far now with
  | error stop last =>
      rw [decoded] at read
      rw [Task.bind_error decoded]
      exact fun same => (read same).elim
  | ok args last =>
      rw [decoded] at read
      obtain rfl : last = now := read
      rw [Task.bind_ok decoded]
      have replies := conforms_reply (η := η) (σ := σ) t simple.2
      have served : ∀ task : Task (Rpc η) σ Unit, Conforms Any task →
          Task.Ends ((task >>= fun _ => do
            Task.ofExcept (Value.check t binding.rets [])
            let reply ← encode t t.responseTag [] .far
            transmit reply
            return Dispatch.builtin t) last) (fun _ _ => True) fun stop _ =>
              stop ≠ .failed .notImplemented := fun task conforms =>
        ((conforms.bind fun _ _ => replies [] (.builtin t)) last across).mono
          (fun _ _ _ => trivial) fun _ _ other => other
      split
      · exact (served _ (conforms_installPage args)).mono (fun _ _ _ => trivial)
          fun _ _ other same => (other same).elim
      · split
        · exact (served _ (conforms_adoptPeer args)).mono (fun _ _ _ => trivial)
            fun _ _ other same => (other same).elim
        · apply Task.ends_bind
          refine (ends_answer_declines across t args).mono ?_ ?_
          · intro rets now' across
            exact (replies rets (.handled t) now' across).mono (fun _ _ _ => trivial)
              fun _ _ other same => (other same).elim
          · exact fun stop _ declines same => ⟨args, rfl, declines same⟩

/-- The message that is taken is a request, and its handler, asked with the arguments that the
message holds, says that it does not do that. -/
def Declined (now : Moment (Rpc η) σ) : Prop :=
  ∃ message mid binding args, onTransport Transport.receive now = .ok (some message) mid ∧
    mid.self = { now.self with transport := mid.self.transport } ∧
    MessageType.isResponse message.tag = false ∧
    mid.self.binding? ⟨message.tag⟩ = some binding ∧
    decode ⟨message.tag⟩ binding.args message .far mid = .ok args mid ∧
    Declines mid ⟨message.tag⟩ args

theorem ends_serveOne_declined (across : now.self.transport.isEndpoint = true)
    (accepted : Accepted now.self) :
    Task.Ends (serveOne now) (fun _ _ => True) fun stop _ =>
      stop = .failed .notImplemented → Declined now := by
  have received := conforms_receive now across
  unfold serveOne
  cases taken : onTransport Transport.receive now with
  | error stop mid =>
      rw [taken] at received
      rw [Task.bind_error taken]
      exact fun same => (received same).elim
  | ok found mid =>
      rw [taken] at received
      obtain ⟨across, full⟩ := received
      have same := self_of_onTransport taken
      rw [Task.bind_ok taken]
      cases found with
      | none => trivial
      | some message =>
          simp only [Task.self_bind]
          by_cases response : MessageType.isResponse message.tag = true
          · rw [if_pos response]
            split
            · trivial
            · trivial
          · rw [if_neg response]
            cases bound : mid.self.binding? ⟨message.tag⟩ with
            | none => exact nofun
            | some binding =>
                have simple : binding.isSimple = true := by
                  refine accepted ⟨message.tag⟩ binding ?_
                  rw [← bound, same]
                  rfl
                refine (ends_serveRequest_declines across simple (full message rfl) _).mono
                  (fun _ _ _ => trivial) fun stop _ declines failed => ?_
                obtain ⟨args, decoded, declines⟩ := declines failed
                exact ⟨message, mid, binding, args, taken, same, Bool.eq_false_iff.mpr response,
                  bound, decoded, declines⟩

/-- Serving a message fails for the convention only if the handler of the message says so, if all
bindings are simple. -/
theorem declined_of_onMessage (across : now.self.transport.isEndpoint = true)
    (accepted : Accepted now.self) {last : Moment (Rpc η) σ}
    (failed : onMessage now = .error (.failed .notImplemented) last) : Declined now := by
  obtain ⟨mid, -, served, -⟩ := settle_onMessage (Task.settle_failed failed)
  rcases (ends_serveOne_declined across accepted).settled served with ⟨_, same, -⟩ | ⟨e, same, ends⟩
  · cases same
  · cases same
    exact ends rfl

end Serving

end Rpc

end Conduit

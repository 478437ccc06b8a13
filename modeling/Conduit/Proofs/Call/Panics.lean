/-
# When serving a message panics

A party serves two message types itself and looks up their arguments by position, and how
many arguments there are is said by the binding that is registered for the type. That may
be another than the party's own (`Short`). Nothing else that a message says can make serving
it panic, whatever its words, its capability and the pages hold: wherever a party gets, its
pages and panes are there (`Reached.sound`), and then a dispatch panics exactly if the message
that it takes is one that the party serves itself by a binding with too few arguments
(`dispatch_panics_iff`).
-/

import Conduit.Proofs.Call.Conduct.Sound
import Conduit.Proofs.Task.Panics

namespace Conduit.Rpc

variable {η σ α : Type}

/-- The turns to come lose no memory and do not panic, and all pages are there. -/
structure Calm (now : Moment (Rpc η) σ) : Prop where
  sound : Sound ⟨.free, now.self, now.scene.machine⟩
  lawful : ∀ turn ∈ now.turns, Turn.Follows Sustained turn
  peaceful : ∀ turn ∈ now.turns, turn.Peaceful

/-- Handlers do not panic themselves. -/
def Composed (η σ : Type) [Handler η σ] : Prop :=
  ∀ (args : List Value) (now : Moment η σ), (∀ turn ∈ now.turns, turn.Peaceful) →
    ¬ Task.Panics (Handler.respond args now)

/-- The message is a request that the party serves itself, and the binding that is registered
for it has fewer arguments than it takes. -/
structure Short (now : Moment (Rpc η) σ) (message : Message) : Prop where
  asked : MessageType.isResponse message.tag = false
  few : ∃ binding args, now.self.binding? ⟨message.tag⟩ = some binding ∧
    decode ⟨message.tag⟩ binding.args message .far now = .ok args now ∧
    ((message.tag = setupPage.code ∧ binding.args.length < 3) ∨
      (message.tag = initiate.code ∧ binding.args = []))

/-- Anybody may do anything that loses no memory. -/
def unbound : Terms σ := ⟨fun _ _ => True, Sustained, True⟩

namespace Calm

variable {now now' : Moment (Rpc η) σ}

/-- A party stays calm wherever it gets. -/
theorem after {phase phase' : Phase} {events : List Event} (calm : Calm now)
    (empty : phase.page? = none)
    (course : Course unbound (phase, now) events (phase', now')) : Calm now' := by
  have start : Sound (Stage.seat (phase, now)) := calm.sound.drop empty
  have sound := Sound.course course (fun _ _ may => may) calm.lawful start
  have fewer := Course.turns_subset course
  exact ⟨sound.drop rfl, fun turn mem => calm.lawful turn (fewer mem),
    fun turn mem => calm.peaceful turn (fewer mem)⟩

/-- The transport by itself. -/
theorem transport (calm : Calm now) :
    Task.Orderly Sustained
      (fun t scene => ∀ chan, t = .slots chan → chan.Fitted scene.machine.memory)
      (⟨now.self.transport, now.scene, now.turns⟩ : Moment Transport σ) :=
  ⟨⟨calm.sound.panes, calm.lawful⟩, calm.peaceful⟩

end Calm

/-- Reading values does not panic if the page is there, whatever the words are. -/
theorem read_total {page : Option View} {m : Memory} (t : MessageType) (mapped : Mapped m page)
    (kinds : List Kind) (words : List UInt64) (cap : Option Cap) :
    ∃ result, Paged.read t page m kinds words cap = .ok result := by
  induction kinds generalizing words cap with
  | nil => exact ⟨_, rfl⟩
  | cons kind kinds ih =>
      cases kind with
      | word =>
          cases words with
          | nil => exact ⟨_, rfl⟩
          | cons w words =>
              obtain ⟨rest, read⟩ := ih words cap
              simp only [Paged.read, read]
              exact ⟨_, rfl⟩
      | str =>
          cases words with
          | nil => exact ⟨_, rfl⟩
          | cons w words =>
              cases known : page with
              | none => exact ⟨_, rfl⟩
              | some view =>
                  obtain ⟨bytes, found⟩ :=
                    Memory.readString_total (mapped view known).1 w.toNat
                  obtain ⟨rest, read⟩ := ih words cap
                  rw [known] at read
                  simp only [Paged.read, found, read, bind, Except.bind]
                  cases bytes.bind Utf8.decode? with
                  | none => exact ⟨_, rfl⟩
                  | some s => exact ⟨_, rfl⟩
      | cap =>
          cases cap with
          | none => exact ⟨_, rfl⟩
          | some c =>
              obtain ⟨rest, read⟩ := ih words none
              simp only [Paged.read, read]
              exact ⟨_, rfl⟩

theorem fitted_stable (t : Transport) (scene scene' : Scene σ)
    (fitted : ∀ chan, t = .slots chan → chan.Fitted scene.machine.memory)
    (sustained : Sustained scene scene') :
    ∀ chan, t = .slots chan → chan.Fitted scene'.machine.memory :=
  fun chan same => (fitted chan same).grows sustained.grows

/-! ### Parts of serving -/

section Parts

variable {now : Moment (Rpc η) σ}

/-- Asking the kernel again and again does not panic. -/
theorem not_panics_awaitAnswer {use : Machine → Except ChannelError α × Machine}
    {now : Moment Transport σ} (lawful : ∀ turn ∈ now.turns, Turn.Follows Sustained turn)
    (peaceful : ∀ turn ∈ now.turns, turn.Peaceful) :
    ¬ Task.Panics (Task.awaitAnswer (Task.asking use) now) := by
  have start : Task.Orderly Sustained (fun _ _ => True) now := ⟨⟨trivial, lawful⟩, peaceful⟩
  refine Task.not_panics_await ?_ (fun _ _ _ _ _ => trivial) start
  intro now orderly
  have later : Task.Orderly Sustained (fun _ _ => True)
      { now with scene := { now.scene with machine := (use now.scene.machine).2 } } :=
    ⟨⟨trivial, orderly.lawful⟩, orderly.peaceful⟩
  rw [Task.asking_bind]
  cases (use now.scene.machine).1 with
  | ok a => exact fun _ => later
  | error e =>
      cases e with
      | transient => exact fun _ => later
      | _ => exact fun _ => later

theorem not_panics_receive (calm : Calm now) :
    ¬ Task.Panics (onTransport Transport.receive now) := by
  intro panics
  have panics := Task.panics_within.mp panics
  unfold Transport.receive at panics
  rw [Task.self_bind] at panics
  simp only at panics
  cases across : now.self.transport with
  | endpoint ep =>
      simp only [across] at panics
      obtain waits | ⟨answer, mid, -, later⟩ := Task.panics_bind.mp panics
      · exact not_panics_awaitAnswer calm.lawful calm.peaceful waits
      · have peaceful : ∀ letter : Letter, Task.Peaceful (do
            if letter.cap.isSome then Task.request ep.allocRecvSlot
            return some (⟨letter.words.toList, letter.cap⟩ : Message) :
              Task Transport σ (Option Message)) := by
          intro letter
          by_cases carries : letter.cap.isSome = true
          · rw [if_pos carries]
            exact .bind (.request _) fun _ => .pure _
          · rw [if_neg carries]
            exact .bind (.pure _) fun _ => .pure _
        rcases answer with e | letter
        · cases e with
          | noMessage => exact Task.Peaceful.pure _ _ later
          | _ => exact Task.Peaceful.fail _ _ later
        · exact peaceful letter mid later
  | slots chan =>
      simp only [across] at panics
      rw [Task.machine_bind] at panics
      obtain none | ⟨words, received⟩ := (calm.sound.panes chan across).receive chan.payloadWords
      · simp only [none, Task.orPanic_ok, pure_bind] at panics
        exact Task.not_panics_ok _ _ panics
      · simp only [received, Task.orPanic_ok, pure_bind] at panics
        exact Task.not_panics_ok _ _ panics

/-- One attempt to send does not panic, and the panes stay where they are. -/
theorem ends_offer (message : Message) (flags : SendFlags) {now : Moment Transport σ}
    (orderly : Task.Orderly Sustained
      (fun t scene => ∀ chan, t = .slots chan → chan.Fitted scene.machine.memory) now) :
    Task.Ends (Transport.offer message flags now)
      (fun found now => found = none → Task.Orderly Sustained
        (fun t scene => ∀ chan, t = .slots chan → chan.Fitted scene.machine.memory) now)
      fun stop _ => ∀ cause, stop ≠ .halted (.panicked cause) := by
  obtain ⟨⟨panes, lawful⟩, peaceful⟩ := orderly
  unfold Transport.offer
  rw [Task.self_bind]
  cases across : now.self with
  | endpoint ep =>
      simp only
      rw [Task.asking_bind]
      cases (ep.send flags ⟨Letter.fit message.words, message.cap⟩ now.scene.machine).1 with
      | ok u =>
          intro none
          cases none
      | error e =>
          cases e with
          | transient =>
              refine fun _ => ⟨⟨fun chan same => ?_, lawful⟩, peaceful⟩
              cases across.symm.trans same
          | _ => exact fun cause same => by cases same
  | slots chan =>
      simp only
      rw [Task.machine_bind]
      obtain ⟨answer, never, refused⟩ | sent := (panes chan across).send message.words
      · simp only [refused, Task.orPanic_ok, pure_bind]
        rw [Task.setMachine_bind, Task.setSelf_bind]
        have still : Task.Orderly Sustained
            (fun t scene => ∀ chan, t = .slots chan → chan.Fitted scene.machine.memory)
            { now with self := Transport.slots chan } := by
          refine ⟨⟨fun chan' same => ?_, lawful⟩, peaceful⟩
          cases same
          exact panes chan across
        split
        · intro none
          cases none
        · exact fun _ => still
        · exact fun _ => still
      · simp only [sent, Task.orPanic_ok, pure_bind]
        rw [Task.setMachine_bind, Task.setSelf_bind]
        intro none
        cases none

theorem not_panics_transmit (calm : Calm now) (message : Message) :
    ¬ Task.Panics (transmit message now) := by
  intro panics
  have waits : ¬ Task.Panics (Task.await (Transport.offer message SendFlags.standard)
      (⟨now.self.transport, now.scene, now.turns⟩ : Moment Transport σ)) :=
    Task.not_panics_await (fun _ orderly => ends_offer message SendFlags.standard orderly)
      fitted_stable calm.transport
  unfold transmit onTransport at panics
  have panics := Task.panics_within.mp panics
  unfold Transport.send at panics
  rw [Task.self_bind] at panics
  simp only at panics
  cases across : now.self.transport with
  | endpoint ep =>
      simp only [across] at panics waits
      exact waits panics
  | slots chan =>
      simp only [across] at panics waits
      by_cases carries : message.cap.isSome = true
      · rw [if_pos carries] at panics
        exact Task.Peaceful.fail_bind _ _ _ panics
      · rw [if_neg carries] at panics
        by_cases long : message.words.length > chan.payloadWords
        · rw [if_pos long] at panics
          exact Task.Peaceful.fail_bind _ _ _ panics
        · rw [if_neg long] at panics
          exact waits panics

/-- Writing a message does not panic, since the page is there. -/
theorem not_panics_encode (calm : Calm now) (t : MessageType) (tag : UInt64) (values : List Value)
    (side : Side) : ¬ Task.Panics (encode t tag values side now) := by
  unfold encode
  rw [Task.self_bind]
  cases across : now.self.transport with
  | endpoint ep =>
      obtain ⟨result, memory, encoded, -⟩ :=
        Paged.encode_cases t tag values (calm.sound.pages t side)
      simp only [Task.machine_bind, encoded, Task.orPanic_ok, pure_bind, Task.setMachine_bind]
      exact Task.Peaceful.ofExcept _ _
  | slots chan => exact Task.Peaceful.ofExcept _ _

/-- Neither does reading one. -/
theorem not_panics_decode (calm : Calm now) (t : MessageType) (kinds : List Kind)
    (message : Message) (side : Side) : ¬ Task.Panics (decode t kinds message side now) := by
  unfold decode
  rw [Task.self_bind]
  cases across : now.self.transport with
  | endpoint ep =>
      obtain ⟨values, decoded⟩ :=
        read_total t (calm.sound.pages t side) kinds message.words.tail message.cap
      simp only [Task.machine_bind, Paged.decode, decoded, Task.orPanic_ok, pure_bind]
      exact Task.Peaceful.ofExcept _ _
  | slots chan => exact Task.Peaceful.ofExcept _ _

end Parts

/-! ### Serving a message -/

section Serving

/-- Three arguments are looked up. -/
theorem panics_installPage {args : List Value} {now : Moment (Rpc η) σ} :
    Task.Panics (installPage args now) ↔ args.length < 3 := by
  constructor
  · intro panics
    by_contra enough
    have peaceful : Task.Peaceful (installPage args : Task (Rpc η) σ Unit) := by
      rcases args with _ | ⟨type, _ | ⟨size, _ | ⟨frame, rest⟩⟩⟩
      · simp at enough
      · simp at enough
      · simp at enough
      · unfold installPage
        simp only
        cases type.asWord with
        | none => exact .fail _
        | some w =>
            cases size.asWord with
            | none => exact .fail _
            | some bytes =>
                cases frame.asCap with
                | none => exact .fail _
                | some c =>
                    refine .bind .self fun rpc => ?_
                    split
                    · exact .fail_bind _ _
                    · refine .bind (.request _) fun page => ?_
                      split
                      · exact .fail_bind _ _
                      · refine .bind .self fun rpc => ?_
                        cases rpc.entries.get? ⟨w⟩ with
                        | none => exact .fail _
                        | some entry => exact .setSelf _
    exact peaceful now panics
  · intro few
    rcases args with _ | ⟨type, _ | ⟨size, _ | ⟨frame, rest⟩⟩⟩
    · exact ⟨_, _, rfl⟩
    · exact ⟨_, _, rfl⟩
    · exact ⟨_, _, rfl⟩
    · simp only [List.length_cons] at few
      omega

/-- One argument is looked up. -/
theorem panics_adoptPeer {args : List Value} {now : Moment (Rpc η) σ} :
    Task.Panics (adoptPeer args now) ↔ args = [] := by
  cases args with
  | nil => exact iff_of_true ⟨_, _, rfl⟩ rfl
  | cons arg rest =>
      refine iff_of_false ?_ (List.cons_ne_nil _ _)
      have peaceful : Task.Peaceful (adoptPeer (arg :: rest) : Task (Rpc η) σ Unit) := by
        unfold adoptPeer
        simp only
        cases arg.asCap with
        | none => exact .fail _
        | some peer =>
            refine .bind .self fun rpc => ?_
            cases rpc.transport with
            | slots chan => exact .fail _
            | endpoint ep => exact .setSelf _
      exact peaceful now

variable [Handler η σ] {now : Moment (Rpc η) σ}

/-- Wherever a task leads from a calm moment with no page in hand, it is calm. -/
theorem Calm.led {task : Task (Rpc η) σ α} {phase : Phase} {a : α} {mid : Moment (Rpc η) σ}
    {done : α → List Event → Phase → Moment (Rpc η) σ → Prop}
    {failed : Error → List Event → Phase → Moment (Rpc η) σ → Prop} (calm : Calm now)
    (leads : Leads unbound task phase now done failed) (empty : phase.page? = none)
    (ran : task now = .ok a mid) : Calm mid := by
  obtain ⟨events, last, course, -⟩ := leads.of_ok ran
  exact calm.after empty course

theorem not_panics_answer (composed : Composed η σ) (calm : Calm now) (t : MessageType)
    (args : List Value) : ¬ Task.Panics (answer t args now) := by
  unfold answer
  rw [Task.self_bind]
  cases now.self.handlers.get? t with
  | none => exact Task.Peaceful.fail _ _
  | some handler =>
      simp only
      rw [Task.panics_within]
      exact composed args _ calm.peaceful

theorem not_panics_finish (calm : Calm now) (t : MessageType) (kinds : List Kind)
    (rets : List Value) (outcome : Dispatch) : ¬ Task.Panics (finish t kinds rets outcome now) := by
  intro whole
  obtain panics | ⟨u, mid, checked, panics⟩ := Task.panics_bind.mp whole
  · exact Task.Peaceful.ofExcept _ _ panics
  · have kept : mid = now := by
      cases result : Value.check t kinds rets with
      | ok u' =>
          rw [result] at checked
          cases checked
          rfl
      | error e =>
          rw [result] at checked
          cases checked
    rw [kept] at panics
    obtain panics | ⟨reply, mid', encoded, panics⟩ := Task.panics_bind.mp panics
    · exact not_panics_encode calm _ _ _ _ panics
    · have calm' : Calm mid' :=
        calm.led (leads_encode t t.responseTag rets .far .free now) rfl encoded
      obtain panics | ⟨u, mid'', -, panics⟩ := Task.panics_bind.mp panics
      · exact not_panics_transmit calm' reply panics
      · exact Task.not_panics_ok _ _ panics

omit [Handler η σ] in
/-- Whether there is a notification can always be told. -/
theorem not_panics_takeEvent (calm : Calm now) :
    ¬ Task.Panics (onTransport Transport.takeEvent now) := by
  unfold Transport.takeEvent
  rw [onTransport_self_bind]
  cases across : now.self.transport with
  | endpoint ep => exact Task.not_panics_ok _ _
  | slots chan =>
      obtain ⟨rung, bells, taken⟩ := (calm.sound.panes chan across).takeNotification
      simp only
      rw [onTransport_onMachine, Task.onMachine_ok taken]
      exact Task.not_panics_ok _ _

/-- The party takes a message that it serves itself by a binding with too few arguments. -/
def TakesShort (now : Moment (Rpc η) σ) : Prop :=
  ∃ message mid, onTransport Transport.receive now = .ok (some message) mid ∧ Short mid message

/-- What is registered for the calls that the party serves itself has the arguments that
they take. -/
structure Ample (rpc : Rpc η) : Prop where
  setup : ∀ binding, rpc.binding? setupPage = some binding → 3 ≤ binding.args.length
  initiate : ∀ binding, rpc.binding? initiate = some binding → binding.args ≠ []

omit [Handler η σ] in
theorem not_takesShort (ample : now.self.Ample) : ¬ TakesShort now := by
  rintro ⟨message, mid, received, -, binding, args, known, -, few⟩
  have bound : now.self.binding? ⟨message.tag⟩ = some binding := by
    rw [sameBut_onTransport received] at known
    exact known
  rcases few with ⟨tagged, few⟩ | ⟨tagged, none⟩
  · rw [tagged] at bound
    exact absurd (ample.setup binding bound) (Nat.not_le.mpr few)
  · rw [tagged] at bound
    exact ample.initiate binding bound none

variable (wanders : Wanders η (Sustained : Scene σ → Scene σ → Prop)) (composed : Composed η σ)

include wanders composed

/-- A request is served without a panic unless its binding has too few arguments for what
the party serves itself. -/
theorem panics_serveRequest (calm : Calm now) {binding : Binding} {request : Message}
    (bound : now.self.binding? ⟨request.tag⟩ = some binding) :
    Task.Panics (serveRequest binding request ⟨request.tag⟩ now) ↔
      ∃ args, decode ⟨request.tag⟩ binding.args request .far now = .ok args now ∧
        ((request.tag = setupPage.code ∧ binding.args.length < 3) ∨
          (request.tag = initiate.code ∧ binding.args = [])) := by
  unfold serveRequest
  rw [Task.panics_bind, or_iff_right (not_panics_decode calm _ _ _ _)]
  constructor
  · rintro ⟨args, mid, decoded, panics⟩
    obtain rfl : mid = now := by
      rcases decode_cases ⟨request.tag⟩ binding.args request .far now with
        ⟨values, same⟩ | ⟨e, same⟩ | ⟨cause, same, -⟩
      · cases same.symm.trans decoded
        rfl
      · cases same.symm.trans decoded
      · cases same.symm.trans decoded
    have opened : Opened mid request binding args := ⟨bound, decoded⟩
    refine ⟨args, decoded, ?_⟩
    rw [← opened.length_eq, ← List.length_eq_zero_iff, ← opened.length_eq]
    by_cases setup : (⟨request.tag⟩ : MessageType) = setupPage
    · rw [if_pos setup] at panics
      have tagged : request.tag = setupPage.code := congrArg MessageType.code setup
      obtain panics | ⟨u, later, installed, panics⟩ := Task.panics_bind.mp panics
      · exact .inl ⟨tagged, panics_installPage.mp panics⟩
      · have calm' := calm.led (leads_installPage tagged opened) rfl installed
        exact absurd panics (not_panics_finish calm' _ _ _ _)
    · rw [if_neg setup] at panics
      by_cases given : (⟨request.tag⟩ : MessageType) = initiate
      · rw [if_pos given] at panics
        have tagged : request.tag = initiate.code := congrArg MessageType.code given
        obtain panics | ⟨u, later, adopted, panics⟩ := Task.panics_bind.mp panics
        · exact .inr ⟨tagged, List.length_eq_zero_iff.mpr (panics_adoptPeer.mp panics)⟩
        · have calm' := calm.led (leads_adoptPeer tagged opened) rfl adopted
          exact absurd panics (not_panics_finish calm' _ _ _ _)
      · rw [if_neg given] at panics
        obtain panics | ⟨rets, later, answered, panics⟩ := Task.panics_bind.mp panics
        · exact absurd panics (not_panics_answer composed calm _ _)
        · have calm' := calm.led (leads_answer wanders ⟨request.tag⟩ args .free mid) rfl answered
          exact absurd panics (not_panics_finish calm' _ _ _ _)
  · rintro ⟨args, decoded, few⟩
    have opened : Opened now request binding args := ⟨bound, decoded⟩
    refine ⟨args, now, decoded, ?_⟩
    rcases few with ⟨tagged, few⟩ | ⟨tagged, none⟩
    · rw [if_pos (congrArg MessageType.mk tagged)]
      exact Task.panics_bind.mpr (.inl (panics_installPage.mpr (opened.length_eq ▸ few)))
    · have other : (⟨request.tag⟩ : MessageType) ≠ setupPage := by
        rw [tagged]
        decide
      rw [if_neg other, if_pos (congrArg MessageType.mk tagged)]
      have empty : args = [] := by
        rw [← List.length_eq_zero_iff, opened.length_eq, none]
        rfl
      exact Task.panics_bind.mpr (.inl (panics_adoptPeer.mpr empty))

/-- Whether treating a message panics is seen from the message and its binding. -/
theorem panics_treat (calm : Calm now) (message : Message) :
    Task.Panics (treat message now) ↔ Short now message := by
  unfold treat
  rw [Task.self_bind]
  split
  case isTrue response =>
    refine iff_of_false ?_ fun short => by simp [short.asked] at response
    split
    case isTrue => exact Task.not_panics_ok _ _
    case isFalse => exact Task.not_panics_ok _ _
  case isFalse asked =>
    cases bound : now.self.binding? ⟨message.tag⟩ with
    | none =>
        refine iff_of_false (Task.Peaceful.fail _ _) fun short => ?_
        obtain ⟨binding, args, known, -⟩ := short.few
        cases bound.symm.trans known
    | some binding =>
        refine (panics_serveRequest wanders composed calm bound).trans ⟨?_, fun short => ?_⟩
        · rintro ⟨args, decoded, few⟩
          exact ⟨Bool.eq_false_iff.mpr asked, binding, args, bound, decoded, few⟩
        · obtain ⟨binding', args, known, decoded, few⟩ := short.few
          cases bound.symm.trans known
          exact ⟨args, decoded, few⟩

theorem panics_serveOne (calm : Calm now) : Task.Panics (serveOne now) ↔ TakesShort now := by
  rw [serveOne_eq, Task.panics_bind, or_iff_right (not_panics_receive calm)]
  have still : ∀ taken mid, onTransport Transport.receive now = .ok taken mid → Calm mid :=
    fun taken mid received =>
      calm.led (leads_receive Picks.serve) rfl received
  constructor
  · rintro ⟨_ | message, mid, received, panics⟩
    · exact absurd panics (Task.not_panics_ok _ _)
    · exact ⟨message, mid, received,
        (panics_treat wanders composed (still _ _ received) message).mp panics⟩
  · rintro ⟨message, mid, received, short⟩
    exact ⟨some message, mid, received,
      (panics_treat wanders composed (still _ _ received) message).mpr short⟩

theorem panics_onMessage (calm : Calm now) : Task.Panics (onMessage now) ↔ TakesShort now := by
  have later : ∀ outcome : Except Error Dispatch, Task.Peaceful (do
      let _ ← Task.settle (onTransport Transport.rearm)
      Task.ofExcept outcome : Task (Rpc η) σ Dispatch) := by
    have rearm : Task.Peaceful (Transport.rearm : Task Transport σ Unit) := by
      refine .bind .self fun transport => ?_
      cases transport with
      | endpoint ep => exact .bind (.request _) fun _ => .setSelf _
      | slots chan => exact .pure _
    exact fun outcome => .bind (.settle (.within rearm)) fun _ => .ofExcept outcome
  rw [← panics_serveOne wanders composed calm]
  unfold onMessage
  rw [Task.panics_bind, Task.panics_settle]
  refine or_iff_left ?_
  rintro ⟨outcome, mid, -, panics⟩
  exact later outcome mid panics

theorem panics_dispatchPending (calm : Calm now) :
    Task.Panics (dispatchPending now) ↔
      ∃ mid, onTransport Transport.takeEvent now = .ok true mid ∧ TakesShort mid := by
  unfold dispatchPending
  rw [Task.panics_bind, or_iff_right (not_panics_takeEvent calm)]
  have still : ∀ event mid, onTransport Transport.takeEvent now = .ok event mid → Calm mid :=
    fun event mid taken =>
      calm.led (leads_takeEvent trivial .free now) rfl taken
  constructor
  · rintro ⟨_ | _, mid, taken, panics⟩
    · exact absurd panics (Task.not_panics_ok _ _)
    · exact ⟨mid, taken, (panics_onMessage wanders composed (still _ _ taken)).mp panics⟩
  · rintro ⟨mid, taken, short⟩
    exact ⟨true, mid, taken, (panics_onMessage wanders composed (still _ _ taken)).mpr short⟩

end Serving

/-! ### Wherever a party gets -/

section Reached

variable [Handler η σ]

/-- How a party gets somewhere. It begins without pages. Then it is asked for one thing after
the other, of whatever outcome, and the others do anything that loses no memory, also while
it waits. -/
inductive Reached : Rpc η → Scene σ → Prop
  | overEndpoint {ep : Endpoint} {rpc : Rpc η} {scene : Scene σ} {m : Machine}
      (backed : Backed scene.machine) (ran : overEndpoint ep scene.machine = (.ok rpc, m)) :
      Reached rpc { scene with machine := m }
  | overSlots {chan : SlotChannel} {scene : Scene σ} (backed : Backed scene.machine)
      (fitted : chan.Fitted scene.machine.memory) : Reached (create (.slots chan)) scene
  /-- The others act. -/
  | others {rpc : Rpc η} {scene scene' : Scene σ} (reached : Reached rpc scene)
      (sustained : Sustained scene scene') : Reached rpc scene'
  /-- The party does something, but uses its transport only as a party does. -/
  | did {rpc : Rpc η} {scene : Scene σ} {turns : List (Turn σ)} {op : Operation η σ}
      {outcome : Except Error Unit} {after : Moment (Rpc η) σ} (reached : Reached rpc scene)
      (itself : ∀ use, op ≠ .useTransport use)
      (lawful : ∀ turn ∈ turns, Turn.Follows Sustained turn)
      (completed : Task.settle op.perform ⟨rpc, scene, turns⟩ = .ok outcome after) :
      Reached after.self after.scene

omit [Handler η σ] in
theorem sound_create {transport : Transport} {m : Machine} (backed : Backed m)
    (panes : ∀ chan, transport = .slots chan → chan.Fitted m.memory) :
    Sound ⟨.free, (create transport : Rpc η), m⟩ := by
  refine .of_bare (fun t side => page?_registerAll _ rfl) backed fun chan across => ?_
  have same : (create transport : Rpc η).transport = transport := by
    unfold create
    rw [registerAll_entries]
  exact panes chan (same.symm.trans across)

omit [Handler η σ] in
/-- A party over an endpoint has no page, and no memory was lost. -/
theorem created_of_overEndpoint {ep : Endpoint} {rpc : Rpc η} {m m' : Machine}
    (ran : overEndpoint ep m = (.ok rpc, m')) :
    ∃ ep', rpc = create (.endpoint ep') ∧ Sustains m m' := by
  unfold Rpc.overEndpoint at ran
  rcases slot : ep.allocRecvSlot m with ⟨e | u, m₁⟩
  · simp [slot] at ran
  · rcases armed : ep.register m₁ with ⟨e | ep', m₂⟩
    · simp [slot, armed] at ran
    · simp only [slot, armed, Prod.mk.injEq, Except.ok.injEq] at ran
      obtain ⟨rfl, rfl⟩ := ran
      have first : Sustains m m₁ := .of_steady (Endpoint.steady_allocRecvSlot slot)
      have later : Sustains m₁ m₂ := .of_steady (Endpoint.steady_register armed)
      exact ⟨ep', rfl, first.grows.trans later.grows, later.backed ∘ first.backed⟩

/-- All pages and panes are there, wherever a party gets. -/
theorem Reached.sound
    (wanders : Wanders η (Sustained : Scene σ → Scene σ → Prop))
    {rpc : Rpc η} {scene : Scene σ}
    (reached : Reached rpc scene) : Sound ⟨.free, rpc, scene.machine⟩ := by
  induction reached with
  | overEndpoint backed ran =>
      obtain ⟨ep', rfl, sustains⟩ := created_of_overEndpoint ran
      exact sound_create (sustains.backed backed) fun chan same => by cases same
  | overSlots backed fitted =>
      exact sound_create backed fun chan same => by
        cases same
        exact fitted
  | others _ sustained ih => exact ih.sustain sustained
  | did _ itself lawful completed ih =>
      obtain ⟨events, course⟩ := course_of_completed unbound wanders (fun _ _ => trivial)
        trivial itself completed
      exact Sound.course course (fun _ _ may => may) lawful ih

/-- Wherever a party got, a dispatch panics exactly if it takes a message that the party serves
itself by a binding with too few arguments, whatever the messages and the pages hold. Hence
none does unless a binding was registered in place of the party's own. -/
theorem dispatch_panics_iff
    (wanders : Wanders η (Sustained : Scene σ → Scene σ → Prop))
    (composed : Composed η σ)
    {rpc : Rpc η} {scene : Scene σ} (reached : Reached rpc scene) (turns : List (Turn σ))
    (lawful : ∀ turn ∈ turns, Turn.Follows Sustained turn)
    (peaceful : ∀ turn ∈ turns, turn.Peaceful) :
    (Task.Panics (onMessage ⟨rpc, scene, turns⟩) ↔ TakesShort ⟨rpc, scene, turns⟩) ∧
    (Task.Panics (dispatchPending ⟨rpc, scene, turns⟩) ↔
      ∃ mid, onTransport Transport.takeEvent ⟨rpc, scene, turns⟩ = .ok true mid ∧
        TakesShort mid) ∧
    (rpc.Ample → ¬ Task.Panics (onMessage ⟨rpc, scene, turns⟩) ∧
      ¬ Task.Panics (dispatchPending ⟨rpc, scene, turns⟩)) := by
  have calm : Calm ⟨rpc, scene, turns⟩ := ⟨reached.sound wanders, lawful, peaceful⟩
  have onOne := panics_onMessage wanders composed calm
  have pending := panics_dispatchPending wanders composed calm
  refine ⟨onOne, pending, fun ample => ⟨fun panics => ?_, fun panics => ?_⟩⟩
  · exact not_takesShort ample (onOne.mp panics)
  · obtain ⟨mid, taken, short⟩ := pending.mp panics
    have same := sameBut_onTransport taken
    have ample' : mid.self.Ample := by
      rw [same]
      exact ⟨ample.setup, ample.initiate⟩
    exact not_takesShort ample' short

end Reached

/-! ### A request to map a page that is not one -/

/-- One end of a channel that queues one message. -/
def receiving : Endpoint := { home := ⟨1⟩, peer := some ⟨0⟩ }

/-- A party over it, as it was set up. -/
def recipient : Rpc Tally := create (.endpoint { receiving with armed := true })

/-- The machine then. -/
def ready : Machine := (receiving.allocRecvSlot (Endpoint.createPair (Machine.create 1)).2).2

/-- Somebody sends the number of the call that sets up a page, and nothing else. -/
def disturbed : Scene Unit :=
  ⟨(ready.onKernel_ (·.inject ⟨1⟩ (Message.letter { words := [4] }))).2, ()⟩

theorem reached_ready : Reached recipient (⟨ready, ()⟩ : Scene Unit) := by
  have backed : Backed (Endpoint.createPair (Machine.create 1)).2 := fun _ => mapped_none _
  have ran : overEndpoint receiving (Endpoint.createPair (Machine.create 1)).2 =
      (.ok recipient, ready) := rfl
  exact @Reached.overEndpoint _ _ _ _ _ ⟨_, ()⟩ _ backed ran

theorem sustained_disturbed : Sustained (⟨ready, ()⟩ : Scene Unit) disturbed :=
  Sustains.of_grows (.refl _) rfl

theorem composed_tally : Composed Tally σ := fun _ _ _ => Task.not_panics_ok _ _

/-- The party refuses the message by itself. -/
theorem dispatch_panics_iff_refused : Reached recipient disturbed ∧ recipient.Ample ∧
    ¬ Task.Panics (dispatchPending ⟨recipient, disturbed, []⟩) := by
  have reached := reached_ready.others sustained_disturbed
  have ample : recipient.Ample := by
    constructor
    · rintro binding known
      cases known
      decide
    · rintro binding known
      cases known
      decide
  have none : ∀ turn : Turn Unit, turn ∉ [] := fun _ => List.not_mem_nil
  obtain ⟨-, -, never⟩ := dispatch_panics_iff (wanders_tally _) composed_tally reached []
    (fun turn mem => absurd mem (none turn)) fun turn mem => absurd mem (none turn)
  exact ⟨reached, ample, (never ample).2⟩

/-- A binding without arguments that is registered for this call is accepted, and then the
message makes the party panic. -/
theorem replaced_binding_panics : ∃ (rpc : Rpc Tally) (scene : Scene Unit),
    recipient.register ⟨setupPage, [], []⟩ = .ok rpc ∧ Reached rpc scene ∧
    Composed Tally Unit ∧ Task.Panics (onMessage ⟨rpc, scene, []⟩) := by
  obtain ⟨rpc, registered⟩ : ∃ rpc, recipient.register ⟨setupPage, [], []⟩ = .ok rpc := ⟨_, rfl⟩
  have completed : Task.settle (Operation.perform (.register ⟨setupPage, [], []⟩))
      ⟨recipient, (⟨ready, ()⟩ : Scene Unit), []⟩ = .ok (.ok ()) ⟨rpc, ⟨ready, ()⟩, []⟩ := by
    cases registered
    rfl
  have reached : Reached rpc disturbed :=
    (Reached.did reached_ready (fun _ same => by cases same)
      (fun _ mem => absurd mem List.not_mem_nil) completed).others sustained_disturbed
  refine ⟨rpc, disturbed, registered, reached, composed_tally, ?_⟩
  cases registered
  exact ⟨.outOfRange, _, rfl⟩

end Conduit.Rpc

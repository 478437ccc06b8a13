/-
# How a call goes

A call of a party goes by strides from having nothing in hand to having nothing in hand
(`leads_call`). On the way it may have a page in hand: it asks the peer to map the page,
which it records only once the peer says so. A call that fails puts down what it has in
hand; if the peer was asked to map a page and has not answered, its reply is still owed.
-/

import Conduit.Call.Interface
import Conduit.Proofs.Call.Conduct.Carry
import Conduit.Proofs.Call.Reading

namespace Conduit

/-! ### What a message carries -/

theorem Inline.cap_of_encode {tag : UInt64} {values : List Value} {width : Nat}
    {message : Message} (encoded : Inline.encode tag values width = .ok message) :
    message.cap = none := by
  obtain ⟨words, -, finished⟩ := of_bind_ok encoded
  cases finished
  rfl

namespace Rpc

variable {η σ α : Type} {phase phase' : Phase} {now : Moment (Rpc η) σ} {rpc rpc' : Rpc η}

/-- What is in hand can be put down: if the peer may still map a page, its reply is owed. -/
def Releasable (phase : Phase) (rpc : Rpc η) : Prop :=
  ∀ t page, phase = .asking t page → rpc.awaiting = some setupPage

theorem releasable_free (rpc : Rpc η) : Releasable .free rpc := fun _ _ same => by cases same

theorem releasable_spoiled (rpc : Rpc η) : Releasable .spoiled rpc := fun _ _ same => by cases same

theorem SameBut.awaiting (same : SameBut rpc rpc') : rpc'.awaiting = rpc.awaiting := by
  rw [same]

variable [Handler η σ] {terms : Terms σ}

/-- What is in hand where a task fails is put down. -/
theorem Leads.released {task : Task (Rpc η) σ α}
    {done : α → List Event → Phase → Moment (Rpc η) σ → Prop}
    {failed : Error → List Event → Phase → Moment (Rpc η) σ → Prop}
    (leads : Leads terms task phase now done fun e events last now' =>
      Releasable last now'.self ∧ failed e events .free now') :
    Leads terms task phase now done failed := by
  refine Task.Ends.mono leads (fun _ _ ends => ends) ?_
  rintro (e | h) now' ends
  · obtain ⟨events, last, course, held, ends⟩ := ends
    have release : Stride terms (last, now') [] (.free, now') :=
      .deal (Deal.release (s := ⟨last, now'.self, now'.scene.machine⟩) held)
    refine ⟨events, .free, ?_, ends⟩
    simpa using course.append (.single release)
  · exact ends

/-! ### Messages -/

/-- Encoding is a step that writes into a page, or it needs none. -/
theorem leads_encode (t : MessageType) (tag : UInt64) (values : List Value) (side : Side)
    (phase : Phase) (now : Moment (Rpc η) σ) :
    Leads terms (encode t tag values side) phase now
      (fun message events last now' => events = [] ∧ last = phase ∧ now'.self = now.self ∧
        message.tag = tag ∧ ∀ c, message.cap = some c → Value.cap c ∈ values)
      fun _ events last now' => events = [] ∧ last = phase ∧ now'.self = now.self := by
  unfold encode Leads
  rw [Task.self_bind]
  cases across : now.self.transport with
  | slots chan =>
      refine leads_ofExcept (fun message encoded => ?_) fun _ _ => ⟨rfl, rfl, rfl⟩
      have capless := Inline.cap_of_encode encoded
      refine ⟨rfl, rfl, rfl, Inline.tag_encode encoded, fun c carried => ?_⟩
      rw [capless] at carried
      cases carried
  | endpoint ep =>
      simp only [Task.machine_bind]
      cases encoded : Paged.encode t tag values (now.self.page? t side)
          now.scene.machine.memory with
      | error cause => exact leads_panic (.write (by rw [across]; rfl) encoded)
      | ok result =>
          obtain ⟨answer, memory⟩ := result
          have writes : Deal terms.calls terms.notices ⟨phase, now.self, now.scene.machine⟩ []
              ⟨phase, now.self, { now.scene.machine with memory }⟩ :=
            .write (by rw [across]; rfl) encoded
          simp only [Task.orPanic_ok, pure_bind, Task.setMachine_bind]
          cases answer with
          | error e => exact leads_deal writes (leads_fail ⟨rfl, rfl, rfl⟩)
          | ok message =>
              exact leads_deal writes (leads_pure ⟨rfl, rfl, rfl, Paged.tag_encode encoded,
                fun c carried => Paged.cap_of_encode encoded carried⟩)

omit [Handler η σ] in
/-- Decoding changes nothing; it ends everything only if the page is not there. -/
theorem decode_cases (t : MessageType) (kinds : List Kind) (message : Message) (side : Side)
    (now : Moment (Rpc η) σ) :
    (∃ values, decode t kinds message side now = .ok values now) ∨
      (∃ e, decode t kinds message side now = .error (.failed e) now) ∨
      ∃ cause, decode t kinds message side now = .error (.halted (.panicked cause)) now ∧
        now.self.transport.isEndpoint = true ∧
        Paged.decode t kinds message (now.self.page? t side) now.scene.machine.memory =
          .error cause := by
  unfold decode
  simp only [Task.self_bind]
  cases across : now.self.transport with
  | slots chan =>
      cases decoded : Inline.decode t kinds message with
      | error e => exact .inr (.inl ⟨e, rfl⟩)
      | ok values => exact .inl ⟨values, rfl⟩
  | endpoint ep =>
      simp only [Task.machine_bind]
      cases decoded : Paged.decode t kinds message (now.self.page? t side)
          now.scene.machine.memory with
      | error cause => exact .inr (.inr ⟨cause, rfl, rfl, rfl⟩)
      | ok result =>
          cases result with
          | error e => exact .inr (.inl ⟨e, rfl⟩)
          | ok values => exact .inl ⟨values, rfl⟩

theorem leads_decode (t : MessageType) (kinds : List Kind) (message : Message) (side : Side)
    (phase : Phase) (now : Moment (Rpc η) σ) :
    Leads terms (decode t kinds message side) phase now
      (fun values events last now' => events = [] ∧ last = phase ∧ now' = now ∧
        decode t kinds message side now = .ok values now)
      fun _ events last now' => events = [] ∧ last = phase ∧ now' = now := by
  unfold Leads
  rcases decode_cases t kinds message side now with
    ⟨values, decoded⟩ | ⟨e, decoded⟩ | ⟨cause, decoded, across, fails⟩
  · rw [decoded]
    exact ⟨[], phase, .nil _, rfl, rfl, rfl, rfl⟩
  · rw [decoded]
    exact ⟨[], phase, .nil _, rfl, rfl, rfl⟩
  · rw [decoded]
    exact ⟨[], _, .nil _, .read across fails⟩

/-! ### Waiting for the reply -/

/-- Looking for the reply takes a message, or finds none, or the reply can no longer be
had. -/
theorem leads_pollReply {pick : Message → Phase}
    (picks : ∀ message, Picks phase message (pick message)) (now : Moment (Rpc η) σ) :
    Leads terms pollReply phase now
      (fun found events last now' =>
        match found with
        | none => events = [] ∧ last = phase ∧ now'.self = now.self
        | some message => events = [.received message] ∧ last = pick message ∧
            SameBut now.self now'.self)
      fun _ _ last now' => Releasable last now'.self := by
  refine leads_bind ((leads_canReceive phase now).mono ?_ fun _ _ _ _ never => never.elim)
  rintro (_ | _) _ _ _ ⟨rfl, rfl, rfl⟩
  · exact leads_pure ⟨rfl, rfl, rfl⟩
  · refine leads_bind (leads_settle ((leads_receive picks).mono ?_ ?_))
    · rintro (_ | message) events last mid ⟨same, ends⟩
      · obtain ⟨rfl, rfl, still⟩ := ends
        exact leads_pure ⟨rfl, rfl, still⟩
      · obtain ⟨rfl, rfl⟩ := ends
        exact leads_pure ⟨rfl, rfl, same⟩
    · rintro e events last mid ⟨rfl, -, -⟩
      have unmark : Deal terms.calls terms.notices ⟨.spoiled, mid.self, mid.scene.machine⟩ []
          ⟨.spoiled, { mid.self with awaiting := none }, mid.scene.machine⟩ := .unmark .spoiled
      exact leads_modifySelf_bind unmark (leads_fail (releasable_spoiled _))

/-- A request is sent and its reply is waited for. -/
theorem leads_transact {t : MessageType} {request : Message} {pick : Message → Phase}
    (unmarked : now.self.awaiting = none)
    (reason : Reason terms.calls now.self phase request phase')
    (made : (t = setupPage ∧ ∃ type page, phase' = .asking type page) ∨ ∃ args, terms.calls t args)
    (picks : ∀ message, Picks phase' message (pick message))
    (clears : ∀ (reply : Message) (rpc : Rpc η), reply.tag = t.responseTag →
      rpc.awaiting = some t → Clears terms.calls rpc (pick reply))
    (keeps : ∀ message (rpc : Rpc η), rpc.awaiting = some t → Releasable (pick message) rpc)
    (start : Releasable phase now.self) :
    Leads terms (transact t request) phase now
      (fun reply _ last now' => last = pick reply ∧ reply.tag = t.responseTag ∧
        SameBut now.self now'.self)
      fun _ _ last now' => Releasable last now'.self := by
  refine leads_bind ((leads_transmit reason).mono ?_ ?_)
  · rintro _ events last mid ⟨rfl, rfl, same⟩
    have mark : Deal terms.calls terms.notices ⟨last, mid.self, mid.scene.machine⟩ []
        ⟨last, { mid.self with awaiting := some t }, mid.scene.machine⟩ :=
      .mark (same.awaiting.trans unmarked) made
    refine leads_modifySelf_bind mark ?_
    have awaited : Leads terms (Task.await pollReply) last
        { mid with self := { mid.self with awaiting := some t } }
        (fun reply events last' now' => events = [.received reply] ∧ last' = pick reply ∧
          SameBut { mid.self with awaiting := some t } now'.self)
        fun _ _ last now' => Releasable last now'.self := by
      refine leads_await { mid.self with awaiting := some t } ?_ rfl
      intro later start
      rw [← start]
      refine (leads_pollReply picks later).mono ?_ fun _ _ _ _ ends => ends
      rintro (_ | reply) events last' now' ends
      · exact ends
      · exact ends
    refine leads_bind (awaited.mono ?_ fun _ _ _ _ ends => ends)
    rintro reply events last mid' ⟨rfl, rfl, same'⟩
    by_cases tagged : reply.tag = t.responseTag
    · rw [if_neg (by simpa using tagged)]
      have unmark : Deal terms.calls terms.notices ⟨pick reply, mid'.self, mid'.scene.machine⟩ []
          ⟨pick reply, { mid'.self with awaiting := none }, mid'.scene.machine⟩ :=
        .unmark (clears reply _ tagged same'.awaiting)
      refine leads_modifySelf_bind unmark (leads_pure ⟨rfl, tagged, ?_⟩)
      unfold SameBut at same same' ⊢
      rw [same', same, unmarked]
    · rw [if_pos tagged]
      exact leads_fail (keeps reply _ same'.awaiting)
  · rintro e events last mid ⟨-, rfl, same⟩
    rw [same]
    exact start

/-- The frame that was mapped is the one that the kernel knows. -/
theorem mapFrame_of_callMapFrame {m : Machine} {frame : Cap} {page : View}
    (mapped : (m.callMapFrame frame).1 = .ok page) : m.kernel.mapFrame frame = .ok page := by
  have same := m.kernel_nextFault (.allocator .mapFrame)
  unfold Machine.callMapFrame at mapped
  rcases answered : m.nextFault (.allocator .mapFrame) with ⟨_ | e, m'⟩
  · rw [answered] at same
    simp only [answered] at mapped
    exact same ▸ mapped
  · simp only [answered] at mapped
    cases mapped

/-- What a caller has in hand once a message came while it waits for its page. -/
def grantedBy (t : MessageType) (page : View) (message : Message) : Phase :=
  if message.tag = setupPage.responseTag then .granted t page else .asking t page

theorem picks_grantedBy (t : MessageType) (page : View) (message : Message) :
    Picks (.asking t page) message (grantedBy t page message) := by
  unfold grantedBy
  by_cases grants : message.tag = setupPage.responseTag
  · rw [if_pos grants]
    exact .granted grants
  · rw [if_neg grants]
    exact .foreign grants

/-- The peer is asked to map a page, and says that it has. -/
theorem leads_ask {t : MessageType} {size : Nat} {frame : Cap} (page : View)
    (unmarked : now.self.awaiting = none) (missing : now.self.page? t .near = none) :
    Leads terms (transact setupPage (setupRequest t size frame)) (.prepared t frame page) now
      (fun _ _ last now' => last = .granted t page ∧ SameBut now.self now'.self)
      fun _ _ last now' => Releasable last now'.self := by
  refine (leads_transact (t := setupPage) unmarked (.ask unmarked missing)
    (.inl ⟨rfl, t, page, rfl⟩) (picks_grantedBy t page) ?_ ?_ ?_).mono ?_ fun _ _ _ _ held => held
  · intro reply rpc grants owed
    rw [grantedBy, if_pos grants]
    exact .granted t page
  · intro message rpc owed t' page' asking
    exact owed
  · intro t' page' asking
    cases asking
  · rintro reply events last mid ⟨rfl, grants, same⟩
    rw [grantedBy, if_pos grants]
    exact ⟨rfl, same⟩

/-- The peer is asked to map a page, which is recorded if it does. -/
theorem leads_askPage {t : MessageType} {size : Nat} {frame : Cap} {page : View}
    (unmarked : now.self.awaiting = none) (missing : now.self.page? t .near = none) :
    Leads terms (do
        let _ ← transact setupPage (setupRequest t size frame)
        Task.modifySelf fun rpc =>
          { rpc with entries := rpc.entries.modify t ({ · with nearPage := some page }) })
      (.prepared t frame page) now (fun _ _ last now' => last = .free ∧ now'.self.awaiting = none)
      fun _ _ last now' => Releasable last now'.self := by
  refine leads_bind ((leads_ask page unmarked missing).mono ?_ fun _ _ _ _ held => held)
  rintro reply events last mid ⟨rfl, same⟩
  have records : Deal terms.calls terms.notices
      ⟨.granted t page, mid.self, mid.scene.machine⟩ []
      ⟨.free, { mid.self with
        entries := mid.self.entries.modify t ({ · with nearPage := some page }) },
        mid.scene.machine⟩ := .near rfl
  exact ⟨[], _, .single (.deal records), rfl, same.awaiting.trans unmarked⟩

/-- A page is set up: a frame is had, the peer maps it, and it is recorded. -/
theorem leads_preparePage {t : MessageType} (across : now.self.transport.isEndpoint = true)
    (unmarked : now.self.awaiting = none) (missing : now.self.page? t .near = none) :
    Leads terms (preparePage t) .free now
      (fun _ _ last now' => last = .free ∧ now'.self.awaiting = none)
      fun _ _ last now' => Releasable last now'.self := by
  refine leads_self_bind ?_
  cases allocated : now.scene.machine.callAllocFrame now.self.pageSize with
  | error cause =>
      refine leads_bind (leads_onMachine ?_ fun cause panicked => .size across panicked)
      intro answer m answered
      cases allocated.symm.trans answered
  | ok result =>
      obtain ⟨answer, m⟩ := result
      unfold Leads
      rw [Task.bind_ok (Task.onMachine_ok allocated)]
      cases answer with
      | error e =>
          exact leads_deal (.allocate across allocated) (leads_bind (leads_fail (releasable_free _)))
      | ok frame =>
          simp only [pure_bind]
          cases mapped : (m.callMapFrame frame).1 with
          | error e =>
              refine leads_deal (.allocate across allocated) (leads_bind
                (leads_request (.map across frame) ?_ fun _ _ => releasable_free _))
              intro page shown
              cases mapped.symm.trans shown
          | ok page =>
              refine leads_deal (.prepare t across rfl allocated (mapFrame_of_callMapFrame mapped))
                (leads_bind (leads_request (.map across frame) ?_ ?_))
              · intro page' shown
                cases mapped.symm.trans shown
                refine leads_machine_bind ?_
                rw [encode_setupRequest]
                simp only [Task.orPanic_ok, pure_bind, Task.ofExcept]
                unfold Leads
                rw [Task.setMachine_bind]
                exact leads_askPage unmarked missing
              · intro e refused
                cases mapped.symm.trans refused

/-- Once what a call needs is there, its request is sent and the reply is read. -/
theorem leads_exchange {t : MessageType} {args : List Value} (made : terms.calls t args)
    (kinds : List Kind) (unmarked : now.self.awaiting = none) :
    Leads terms (do
        let request ← encode t t.code args .near
        let reply ← transact t request
        decode t kinds reply .near) .free now (fun _ _ last _ => last = .free)
      fun _ _ last now' => Releasable last now'.self := by
  refine leads_bind ((leads_encode t t.code args .near .free now).mono ?_ ?_)
  · rintro request events last mid ⟨rfl, rfl, same, tagged, carried⟩
    rw [← same] at unmarked
    refine leads_bind ((leads_transact unmarked (.request unmarked made tagged carried)
      (.inr ⟨args, made⟩) Picks.reply ?_ ?_ (releasable_free _)).mono ?_ fun _ _ _ _ held => held)
    · intro reply rpc _ owed
      exact .returned owed made
    · intro message rpc _
      exact releasable_free rpc
    · rintro reply events last mid ⟨rfl, -, -⟩
      refine (leads_decode t kinds reply .near .free mid).mono ?_ ?_
      · rintro values events last now' ⟨rfl, rfl, -⟩
        rfl
      · rintro e events last now' ⟨rfl, rfl, -⟩
        exact releasable_free _
  · rintro e events last mid ⟨-, rfl, -⟩
    exact releasable_free _

/-- A call that may be made begins and ends with nothing in hand. -/
theorem leads_call {t : MessageType} {args : List Value} (made : terms.calls t args) :
    Leads terms (call t args) .free now (fun _ _ last _ => last = .free)
      fun _ _ last _ => last = .free := by
  refine Leads.released (Leads.mono ?_ (fun _ _ _ _ ends => ends) fun _ _ _ _ held => ⟨held, rfl⟩)
  unfold call
  refine leads_self_bind ?_
  cases mark : now.self.awaiting with
  | some other =>
      have outstanding : now.self.isOutstanding = true := by rw [isOutstanding, mark]; rfl
      rw [if_pos outstanding]
      exact leads_bind (leads_fail (releasable_free _))
  | none =>
      have idle : now.self.isOutstanding = false := by rw [isOutstanding, mark]; rfl
      simp only [idle, Bool.false_eq_true, if_false]
      cases bound : now.self.binding? t with
      | none => exact leads_fail (releasable_free _)
      | some binding =>
          refine leads_bind (leads_ofExcept (fun _ checked => ?_) fun _ _ => releasable_free _)
          split
          case isTrue => exact leads_bind (leads_fail (releasable_free _))
          case isFalse =>
            split
            case isTrue needed =>
              simp only [Bool.and_eq_true, Option.isNone_iff_eq_none] at needed
              refine leads_bind ((leads_preparePage needed.1.1 mark needed.2).mono ?_
                fun _ _ _ _ held => held)
              rintro _ events last mid ⟨rfl, unmarked⟩
              exact leads_exchange made binding.rets unmarked
            case isFalse => exact leads_exchange made binding.rets mark

end Rpc

end Conduit

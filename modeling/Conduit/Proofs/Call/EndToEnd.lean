/-
# Calls from end to end

Two parties that agree call each other, one call after the other, in either direction. While
a call waits, the party that is called attends to its messages. Whatever calls were made
before, and however they ended, as long as none of them ended everything: if the arguments
of the next call are of the right kinds, and its strings fit the page of the caller, then
the handler of the other party is run once on these very arguments, and what it returns, if
it is of the right kinds and fits the page, is what the call returns (`calls_return`).
Afterwards nothing waits on the channel and nothing is owed.

`call_cases` lists all ways in which a call may end. All but the end of everything keep the
agreement (`Step.agreed`), which is what the induction over the earlier calls needs.
-/

import Conduit.Proofs.Call.Agreement

namespace Conduit

namespace Rpc

variable {η ζ σ τ : Type} {agreement : Agreement} {a b : Cap} {w w' : World η ζ τ}
  {t : MessageType} {binding : Binding} {args rets : List Value} {visits later : List (List Act)}
  {m m' : Machine}

/-! ### Proper calls -/

/-- The bytes of the page for the calls of a message type, whether it is there or would have
to be set up. -/
def World.pageBytes (w : World η ζ τ) (t : MessageType) : Nat :=
  match w.page .forth t with
  | some view => view.bytes
  | none => Word.countFor w.left.pageSize * Word.size

/-- A call would have to set up a page first. -/
def World.lacksPage (w : World η ζ τ) (t : MessageType) (binding : Binding) : Bool :=
  binding.usesStrings && (w.page .forth t).isNone

/-- No string has a zero byte, and together they fit the page. -/
def World.Holds (w : World η ζ τ) (t : MessageType) (values : List Value) : Prop :=
  (∀ s, .str s ∈ values → 0 ∉ Utf8.encode s) ∧ Paged.spaceOf values ≤ w.pageBytes t

/-- A call that the code can carry out: the arguments are of the right kinds and fit, a page
that has to be set up can be addressed, there are slots for its frame and for what is
received, and the other party dispatches once for each request. -/
structure Proper (w : World η ζ τ) (t : MessageType) (binding : Binding) (args : List Value)
    (visits : List (List Act)) : Prop where
  kinds : args.map Value.kind = binding.args
  holds : w.Holds t args
  addressable : w.lacksPage t binding = true →
    Word.countFor w.left.pageSize < Memory.wordLimit
  slots : w.machine.Room (2 * (w.lacksPage t binding).toNat + Paged.capsOf args)
  attended : (w.lacksPage t binding).toNat < busy visits

theorem usesStrings_of_args (mem : .str ∈ binding.args) : binding.usesStrings = true := by
  rw [Binding.usesStrings, List.contains_iff_mem]
  exact List.mem_append_left _ mem

theorem usesStrings_of_rets (mem : .str ∈ binding.rets) : binding.usesStrings = true := by
  rw [Binding.usesStrings, List.contains_iff_mem]
  exact List.mem_append_right _ mem

/-! ### One exchange of messages -/

/-- What a call does once the page is there. -/
def converse (t : MessageType) (args : List Value) (kinds : List Kind) :
    Task (Rpc η) σ (List Value) := do
  let request ← encode t t.code args .near
  let reply ← transact t request
  decode t kinds reply .near

/-- The handler was run once on the arguments, at the first machine, and returned at the
second. -/
structure Completed [Handler ζ τ] (agreement : Agreement) (a b : Cap) (w : World η ζ τ)
    (t : MessageType) (args : List Value) (m : Machine) (rets : List Value) (m' : Machine)
    (w' : World η ζ τ) : Prop where
  responds : ∃ handler, Responds w.right t args m w.rest rets handler m' w'.rest ∧
    w'.right.handlers = w.right.handlers.insert t handler
  left : w'.left.handlers = w.left.handlers
  agreed : Agreed agreement a b w'

theorem Agreed.self_eq (agreed : Agreed agreement a b w) :
    ({ w.left with transport := .endpoint (.joining a b) } : Rpc η) = w.left := by
  rw [← agreed.across]

variable [Handler ζ τ]

/-- The request is written, or the arguments do not fit the page. -/
theorem encode_request (agreed : Agreed agreement a b w) (t : MessageType) (args : List Value)
    (visits : List (List Act)) :
    ∃ m, Leaves a b w.machine m ∧
      ((∃ request, Paged.Holding t (w.page .forth t) args t.code request m.memory ∧
          m.kernel = w.machine.kernel ∧
          encode t t.code args .near (w.moment visits) =
            .ok request (({ w with machine := m } : World η ζ τ).moment visits)) ∨
        ¬ Paged.Fits (w.page .forth t) { words := [t.code] } args ∧ ∃ e,
          encode t t.code args .near (w.moment visits) =
            .error (.failed e) (({ w with machine := m } : World η ζ τ).moment visits)) := by
  obtain ⟨memory, grows, ⟨request, holding, encoded⟩ | ⟨never, e, refused⟩⟩ :=
    encode_cases w.left w.machine (w.right, w.rest) t.code args (agreed.mapped .forth t)
  · have encoded := encoded (.joining a b) (visits.map attend)
    rw [agreed.self_eq] at encoded
    exact ⟨{ w.machine with memory }, ⟨agreed.ready.duplex.congr rfl rfl rfl, grows⟩,
      .inl ⟨request, holding, rfl, encoded⟩⟩
  · have refused := refused (.joining a b) (visits.map attend)
    rw [agreed.self_eq] at refused
    exact ⟨{ w.machine with memory }, ⟨agreed.ready.duplex.congr rfl rfl rfl, grows⟩,
      .inr ⟨never, e, refused⟩⟩

/-- Once the handler has answered, its results are read from the page to which they were
written. -/
theorem converse_replied {request reply : Message} {m₁ : Machine} {scene' : Scene (Rpc ζ × τ)}
    (agreed : Agreed agreement a b w) (known : agreement.binding? t = some binding)
    (leaves : Leaves a b w.machine m)
    (encoded : encode t t.code args .near (w.moment visits) =
      .ok request (({ w with machine := m } : World η ζ τ).moment visits))
    (before : Leaves a b w.machine m₁)
    (replied : Replied a b (asked b request ⟨m, w.scene.others⟩) binding t args m₁ rets m' reply
      scene') :
    busy visits = 0 ∧ Halted (converse t args binding.rets (w.moment visits)) ∨
      ∃ w' later, Completed agreement a b w t args m₁ rets m' w' ∧
        (converse t args binding.rets (w.moment visits) = .ok rets (w'.moment later) ∨
          ¬ m'.Room (Paged.capsOf rets) ∧ ∃ e,
            converse t args binding.rets (w.moment visits) =
              .error (.failed e) (w'.moment later)) := by
  have simple := agreement.simple t binding known
  rw [Binding.isSimple, Bool.and_eq_true] at simple
  have eq : converse t args binding.rets (w.moment visits) = _ := Task.bind_ok encoded
  have costs : reply.letter.cap.isSome → Paged.capsOf rets = 1 :=
    replied.holding.costs (replied.kinds ▸ simple.2)
  obtain ⟨handler, s', others, responds⟩ := replied.responds
  rcases transact_replied w.left agreed.across agreed.left.unmarked (agreed.leaves leaves).ready
    replied.serves replied.ready ((Message.tag_letter reply).trans replied.holding.tag) costs visits
    with ⟨idle, halted⟩ | ⟨later, m₂, fewer, duplex₂, spends₂, ran⟩
  · exact .inl ⟨idle, eq ▸ halted_bind halted⟩
  · have grows₂ : m'.memory.Grows m₂.memory := spends₂.memory ▸ replied.grows
    have leaves₂ : Leaves a b w.machine m₂ :=
      ⟨duplex₂, before.grows.trans (replied.leaves.grows.trans grows₂)⟩
    have agreed₂ := (agreed.leaves leaves₂).handled t handler s'
    rw [others] at ran
    refine .inr ⟨⟨m₂, w.left, w.right.handle t handler, s'⟩, later,
      ⟨⟨handler, responds, rfl⟩, rfl, agreed₂⟩, ?_⟩
    rcases ran with ran | ⟨full, e, ran⟩
    · left
      rw [replied.holding.whole] at ran
      have decoded : Paged.decode t binding.rets reply (w.page .forth t) m₂.memory =
          .ok (.ok rets) := by
        rw [← agreed.forth t, spends₂.memory, ← replied.kinds]
        exact replied.holding.reads
      exact eq.trans ((Task.bind_ok ran).trans (decode_ok agreed.across decoded))
    · exact .inr ⟨fun room => full ((Machine.room_congr replied.slots).mpr room), e,
        eq.trans (Task.bind_error ran)⟩

/-- The request is answered by the handler, or there is no reply. -/
theorem converse_cases (discreet : Discreet a b ζ τ) (agreed : Agreed agreement a b w)
    (known : agreement.binding? t = some binding) (kinds : args.map Value.kind = binding.args)
    (visits : List (List Act)) :
    (∃ e m, converse t args binding.rets (w.moment visits) =
          .error (.failed e) (({ w with machine := m } : World η ζ τ).moment visits) ∧
        Agreed agreement a b { w with machine := m } ∧ ¬ Paged.Tidy (w.page .forth t) args) ∨
      ∃ m, Leaves a b w.machine m ∧
        (Halted (converse t args binding.rets (w.moment visits)) ∧
            (w.machine.Room (Paged.capsOf args) → 0 < busy visits →
              ¬ Complies w.scene binding t args m) ∨
          ∃ rets m' w' later, Completed agreement a b w t args m rets m' w' ∧
            (converse t args binding.rets (w.moment visits) = .ok rets (w'.moment later) ∨
              ¬ m'.Room (Paged.capsOf rets) ∧ ∃ e,
                converse t args binding.rets (w.moment visits) =
                  .error (.failed e) (w'.moment later))) := by
  have simple := agreement.simple t binding known
  obtain ⟨m, leaves, ⟨request, holding, kernel, encoded⟩ | ⟨never, e, refused⟩⟩ :=
    encode_request agreed t args visits
  swap
  · rw [Binding.isSimple, Bool.and_eq_true] at simple
    exact .inl ⟨e, m, Task.bind_error refused, agreed.leaves leaves,
      fun tidy => never (tidy.fits (kinds ▸ simple.1) _)⟩
  right
  have agreed₁ := agreed.leaves leaves
  have far : w.right.page? t .far = w.page .forth t := agreed.forth t
  have ready : Ready a b (asked b request ⟨m, w.scene.others⟩) [] [request.letter] :=
    agreed₁.ready.asked request
  obtain ⟨m₁, duplex₁, spends, served⟩ := serves_request discreet ready
    (agreed.right.bound t binding known) simple (agreement.ne_setupPage known)
    (agreement.ne_initiate known) (agreement.asks t binding known) kinds (far ▸ holding)
    (far ▸ agreed₁.mapped .forth t)
  have memory₁ : m₁.memory = m.memory := spends.memory
  have leaves₁ : Leaves a b w.machine m₁ := ⟨duplex₁, memory₁ ▸ leaves.grows⟩
  refine ⟨m₁, leaves₁, ?_⟩
  rcases served with ⟨rets, m', reply, scene', replied⟩ | ⟨never, silent⟩
  · rcases converse_replied agreed known leaves encoded leaves₁ replied with
      ⟨idle, halted⟩ | ⟨w', later, ended⟩
    · refine .inl ⟨halted, fun _ attended => ?_⟩
      rw [idle] at attended
      exact absurd attended (Nat.lt_irrefl 0)
    · exact .inr ⟨rets, m', w', later, ended⟩
  · left
    constructor
    · have eq : converse t args binding.rets (w.moment visits) = _ := Task.bind_ok encoded
      exact eq ▸ halted_bind (transact_silent w.left agreed.across agreed₁.ready silent visits)
    · intro room _
      exact never ((Machine.room_congr (congrArg Kernel.nextSlot kernel)).mpr room)

/-! ### One call -/

/-- The page is there, and the messages can be exchanged. -/
structure Prepared (agreement : Agreement) (a b : Cap) (w : World η ζ τ) (t : MessageType)
    (binding : Binding) (args : List Value) (visits : List (List Act)) (w' : World η ζ τ)
    (later : List (List Act)) : Prop where
  ran : call t args (w.moment visits) = converse t args binding.rets (w'.moment later)
  agreed : Agreed agreement a b w'
  grows : w.machine.memory.Grows w'.machine.memory
  page : binding.usesStrings = true →
    ∃ view, w'.page .forth t = some view ∧ view.bytes = w.pageBytes t
  slots : w'.machine.kernel.nextSlot.toNat ≤
    w.machine.kernel.nextSlot.toNat + 2 * (w.lacksPage t binding).toNat
  fewer : busy later + (w.lacksPage t binding).toNat = busy visits
  left : w'.left.handlers = w.left.handlers
  right : w'.right.handlers = w.right.handlers
  rest : w'.rest = w.rest

/-- A call checks its arguments, and sets up the page if it has to. -/
theorem call_eq (agreed : Agreed agreement a b w) (known : agreement.binding? t = some binding)
    (args : List Value) (visits : List (List Act)) :
    call t args (w.moment visits) =
      (do
        Task.ofExcept (Value.check t binding.args args)
        if w.lacksPage t binding then preparePage t
        converse t args binding.rets : Task (Rpc η) (Rpc ζ × τ) (List Value))
          (w.moment visits) := by
  have free : ¬ w.left.isOutstanding = true := by
    rw [agreed.left.idle]
    exact Bool.false_ne_true
  have bound := agreed.left.bound t binding known
  have endpoint : w.left.transport.isEndpoint = true := by
    rw [agreed.across]
    rfl
  have page : (w.left.page? t .near).isNone = (w.page .forth t).isNone := rfl
  change call t args ⟨w.left, w.scene, visits.map attend⟩ = _
  unfold call
  rw [Task.self_bind, if_neg free]
  simp only [bound, endpoint, Bool.not_true, Bool.false_and, Bool.false_eq_true, if_false,
    Bool.true_and, page]
  rfl

theorem call_mismatch (agreed : Agreed agreement a b w)
    (known : agreement.binding? t = some binding) (wrong : args.map Value.kind ≠ binding.args)
    (visits : List (List Act)) :
    call t args (w.moment visits) = .error (.failed (.argMismatch t)) (w.moment visits) := by
  have checked : Value.check t binding.args args = .error (.argMismatch t) := if_neg wrong
  rw [call_eq agreed known, checked]
  rfl

/-- A call that needs no page but those that are there. -/
theorem call_paged (agreed : Agreed agreement a b w) (known : agreement.binding? t = some binding)
    (kinds : args.map Value.kind = binding.args) (there : w.lacksPage t binding = false)
    (visits : List (List Act)) :
    call t args (w.moment visits) = converse t args binding.rets (w.moment visits) := by
  have checked : Value.check t binding.args args = .ok () := if_pos kinds
  rw [call_eq agreed known, checked, there]
  rfl

theorem call_unpaged (agreed : Agreed agreement a b w)
    (known : agreement.binding? t = some binding) (kinds : args.map Value.kind = binding.args)
    (lacks : w.lacksPage t binding = true) (visits : List (List Act)) :
    call t args (w.moment visits) =
      (preparePage t >>= fun _ => converse t args binding.rets) (w.moment visits) := by
  have checked : Value.check t binding.args args = .ok () := if_pos kinds
  rw [call_eq agreed known, checked, lacks]
  rfl

/-- The call ended everything, or it failed and both parties still agree. -/
def GaveUp (agreement : Agreement) (a b : Cap)
    (result : EStateM.Result Stop (Moment (Rpc η) (Rpc ζ × τ)) (List Value)) : Prop :=
  Halted result ∨ ∃ e w' later, result = .error (.failed e) (World.moment w' later) ∧
    Agreed agreement a b w'

/-- A page that the peer still has to map takes a slot and a visit more. -/
theorem prepared_cases (agreed : Agreed agreement a b w)
    (known : agreement.binding? t = some binding) (kinds : args.map Value.kind = binding.args)
    (visits : List (List Act)) :
    (∃ w' later, Prepared agreement a b w t binding args visits w' later) ∨
      GaveUp agreement a b (call t args (w.moment visits)) ∧
        ¬ Proper w t binding args visits := by
  cases lacks : w.lacksPage t binding with
  | false =>
      have eq := call_paged agreed known kinds lacks visits
      refine .inl ⟨w, visits, eq, agreed, .refl _, ?_, Nat.le_add_right _ _, ?_, rfl, rfl, rfl⟩
      · intro uses
        rw [World.lacksPage, uses, Bool.true_and, Option.isNone_eq_false_iff] at lacks
        obtain ⟨view, there⟩ := Option.isSome_iff_exists.mp lacks
        refine ⟨view, there, ?_⟩
        rw [World.pageBytes, there]
      · rw [lacks]
        rfl
  | true =>
      have eq := call_unpaged agreed known kinds lacks visits
      rcases preparePage_cases agreed known visits with
        ⟨later, view, m, fewer, ran, agreed', grows, words, slots⟩ | ⟨halted, never⟩ |
          ⟨full, e, ran⟩
      · refine .inl ⟨w.paged t view m, later, eq.trans (Task.bind_ok ran), agreed', grows, ?_, ?_,
          ?_, rfl, rfl, rfl⟩
        · intro _
          have left := agreed.left.bound t binding known
          refine ⟨view, (page_paged left view .forth t).trans (if_pos ⟨rfl, rfl⟩), ?_⟩
          rw [World.lacksPage, Bool.and_eq_true, Option.isNone_iff_eq_none] at lacks
          rw [World.pageBytes, lacks.2, ← words]
          rfl
        · rw [lacks]
          exact slots
        · rw [lacks]
          exact fewer
      · refine .inr ⟨.inl (eq ▸ halted_bind halted), fun proper => never ?_⟩
        have slots := proper.slots
        have attended := proper.attended
        rw [lacks] at slots attended
        exact ⟨proper.addressable lacks, slots.mono (Nat.le_add_right _ _),
          Nat.lt_trans Nat.zero_lt_one attended⟩
      · refine .inr ⟨.inr ⟨e, w, visits, eq.trans (Task.bind_error ran), agreed⟩, ?_⟩
        intro proper
        have slots := proper.slots
        rw [lacks] at slots
        exact full (slots.mono (Nat.le_trans (Nat.le_succ 1) (Nat.le_add_right _ _)))

/-- The values fit the page that was prepared for them. -/
theorem Prepared.tidy {kinds : List Kind} {values : List Value} {w' : World η ζ τ}
    (prepared : Prepared agreement a b w t binding args visits w' later)
    (shape : values.map Value.kind = kinds)
    (strings : .str ∈ kinds → binding.usesStrings = true) (holds : w.Holds t values) :
    Paged.Tidy (w'.page .forth t) values := by
  refine ⟨holds.1, fun s mem => ?_⟩
  have uses := strings (shape ▸ List.mem_map.mpr ⟨.str s, mem, rfl⟩)
  obtain ⟨view, there, bytes⟩ := prepared.page uses
  exact ⟨view, there, bytes ▸ holds.2⟩

namespace Prepared

variable {w' : World η ζ τ} (prepared : Prepared agreement a b w t binding args visits w' later)

include prepared

theorem room (proper : Proper w t binding args visits) :
    w'.machine.Room (Paged.capsOf args) := by
  have before := prepared.slots
  have slots := proper.slots
  unfold Machine.Room at slots ⊢
  omega

theorem attended (proper : Proper w t binding args visits) : 0 < busy later := by
  have fewer := prepared.fewer
  have attended := proper.attended
  omega

/-- The handlers are those that there were. -/
theorem responds {handler : ζ} {s' : τ} :
    Responds w'.right t args m w'.rest rets handler m' s' ↔
      Responds w.right t args m w.rest rets handler m' s' := by
  unfold Responds
  rw [prepared.right, prepared.rest]

end Prepared

/-- How a call may end. It returns what the handler returned, unless there is no slot for a
capability among that; otherwise the handler did not return what it should, or the call
was not a proper one. -/
theorem call_cases (discreet : Discreet a b ζ τ) (agreed : Agreed agreement a b w)
    (known : agreement.binding? t = some binding) (args : List Value)
    (visits : List (List Act)) :
    ∃ m, Leaves a b w.machine m ∧
      (GaveUp agreement a b (call t args (w.moment visits)) ∧
          (Proper w t binding args visits → ∀ rets handler m' s',
            Responds w.right t args m w.rest rets handler m' s' →
            rets.map Value.kind = binding.rets → ¬ w.Holds t rets) ∨
        ∃ rets m' w' later, Completed agreement a b w t args m rets m' w' ∧
          (call t args (w.moment visits) = .ok rets (w'.moment later) ∨
            ¬ m'.Room (Paged.capsOf rets) ∧ ∃ e,
              call t args (w.moment visits) = .error (.failed e) (w'.moment later))) := by
  have still : Leaves a b w.machine w.machine := ⟨agreed.ready.duplex, .refl _⟩
  by_cases kinds : args.map Value.kind = binding.args
  swap
  · refine ⟨w.machine, still, .inl ⟨.inr ⟨_, w, visits, call_mismatch agreed known kinds visits,
      agreed⟩, fun proper => absurd proper.kinds kinds⟩⟩
  rcases prepared_cases agreed known kinds visits with ⟨w₁, later, prepared⟩ | ⟨gaveUp, never⟩
  swap
  · exact ⟨w.machine, still, .inl ⟨gaveUp, fun proper => absurd proper never⟩⟩
  have eq := prepared.ran
  rcases converse_cases discreet prepared.agreed known kinds later with
    ⟨e, m, ran, agreed', never⟩ |
      ⟨m, leaves, ⟨halted, never⟩ | ⟨rets, m', w', later', completed, ran⟩⟩
  · refine ⟨w.machine, still, .inl ⟨.inr ⟨e, _, later, eq.trans ran, agreed'⟩, fun proper => ?_⟩⟩
    exact absurd (prepared.tidy kinds usesStrings_of_args proper.holds) never
  · refine ⟨m, ⟨leaves.duplex, prepared.grows.trans leaves.grows⟩, .inl ⟨.inl (eq ▸ halted), ?_⟩⟩
    intro proper rets handler m' s' responds shape holds
    refine never (prepared.room proper) (prepared.attended proper)
      ⟨rets, handler, m', s', prepared.responds.mpr responds, shape, ?_⟩
    have tidy := prepared.tidy shape usesStrings_of_rets holds
    rw [← prepared.agreed.forth t] at tidy
    exact tidy
  · refine ⟨m, ⟨leaves.duplex, prepared.grows.trans leaves.grows⟩,
      .inr ⟨rets, m', w', later', ?_, ?_⟩⟩
    · obtain ⟨handler, responds, right⟩ := completed.responds
      exact ⟨⟨handler, prepared.responds.mp responds, prepared.right ▸ right⟩,
        completed.left.trans prepared.left, completed.agreed⟩
    · rw [eq]
      exact ran

/-! ### One call after the other -/

/-- A call by either party, while the other one attends to its messages. However it ends,
everything goes on unless it ends everything. -/
inductive Step [Handler η τ] (agreement : Agreement) : World η ζ τ → World η ζ τ → Prop
  | forth {w : World η ζ τ} {t : MessageType} {binding : Binding} {args : List Value}
      {visits : List (List Act)} {now : Moment (Rpc η) (Rpc ζ × τ)}
      (known : agreement.binding? t = some binding)
      (ended : Task.Ends (call t args (w.moment visits)) (fun _ now' => now' = now)
        fun stop now' => (∃ e, stop = .failed e) ∧ now' = now) :
      Step agreement w (.after now)
  | back {w : World η ζ τ} {t : MessageType} {binding : Binding} {args : List Value}
      {visits : List (List Act)} {now : Moment (Rpc ζ) (Rpc η × τ)}
      (known : agreement.binding? t = some binding)
      (ended : Task.Ends (call t args (w.swap.moment visits)) (fun _ now' => now' = now)
        fun stop now' => (∃ e, stop = .failed e) ∧ now' = now) :
      Step agreement w (World.after now).swap

/-- Any number of calls, one after the other. -/
def Runs [Handler η τ] (agreement : Agreement) : World η ζ τ → World η ζ τ → Prop :=
  Relation.ReflTransGen (Step agreement)

/-- The handler that answered has its new state and so has what it sees besides; nothing
else happened to a handler, nothing waits, and nothing is owed. -/
structure Answered (a b : Cap) (w : World η ζ τ) (t : MessageType) (handler : ζ) (s : τ)
    (w' : World η ζ τ) : Prop where
  left : w'.left.handlers = w.left.handlers
  right : w'.right.handlers = w.right.handlers.insert t handler
  rest : w'.rest = s
  idle : Duplex w'.machine a b [] []
  unmarked : w'.left.isOutstanding = false ∧ w'.right.isOutstanding = false

/-- Whatever call the left party makes now, there is a machine at which the handler of the
right party is run on its arguments. A proper call returns what the handler returns there,
if the handler keeps to the binding and there is a slot for a capability that it returns;
and no call returns anything else. -/
def CallsReturn (agreement : Agreement) (a b : Cap) (w : World η ζ τ) : Prop :=
  ∀ (t : MessageType) (binding : Binding) (args : List Value) (visits : List (List Act)),
    agreement.binding? t = some binding → ∃ m, Leaves a b w.machine m ∧
      (Proper w t binding args visits → ∀ rets handler m' s',
        Responds w.right t args m w.rest rets handler m' s' →
        rets.map Value.kind = binding.rets → w.Holds t rets → m'.Room (Paged.capsOf rets) →
        ∃ w' later, call t args (w.moment visits) = .ok rets (w'.moment later) ∧
          Answered a b w t handler s' w') ∧
      ∀ rets now, call t args (w.moment visits) = .ok rets now → ∃ handler m' s',
        Responds w.right t args m w.rest rets handler m' s' ∧
          Answered a b w t handler s' (.after now)

theorem Completed.answered
    (completed : Completed agreement a b w t args m rets m' w') :
    ∃ handler, Responds w.right t args m w.rest rets handler m' w'.rest ∧
      Answered a b w t handler w'.rest w' := by
  obtain ⟨handler, responds, right⟩ := completed.responds
  have agreed := completed.agreed
  exact ⟨handler, responds, completed.left, right, rfl, agreed.ready.duplex, agreed.left.idle,
    agreed.right.idle⟩

theorem Agreed.callsReturn (discreet : Discreet a b ζ τ) (agreed : Agreed agreement a b w) :
    CallsReturn agreement a b w := by
  intro t binding args visits known
  obtain ⟨m, leaves, ended⟩ := call_cases discreet agreed known args visits
  refine ⟨m, leaves, ?_⟩
  rcases ended with ⟨gaveUp, never⟩ | ⟨rets, m', w', later, completed, ran⟩
  · refine ⟨fun proper rets handler m' s' responds kinds holds _ =>
      absurd holds (never proper rets handler m' s' responds kinds), ?_⟩
    intro rets now returned
    rcases gaveUp with ⟨h, now', halted⟩ | ⟨e, w', later, failed, -⟩
    · cases halted.symm.trans returned
    · cases failed.symm.trans returned
  · obtain ⟨handler, responds, answered⟩ := completed.answered
    constructor
    · intro proper rets' handler' m'' s'' responds' kinds holds room
      obtain ⟨rfl, rfl, rfl, rfl⟩ := responds.unique responds'
      rcases ran with returned | ⟨full, -⟩
      · exact ⟨w', later, returned, answered⟩
      · exact absurd room full
    · intro rets' now returned
      rcases ran with ran | ⟨-, e, failed⟩
      · cases ran.symm.trans returned
        exact ⟨handler, m', w'.rest, responds, answered⟩
      · cases failed.symm.trans returned

theorem agreed_after (discreet : Discreet a b ζ τ) (agreed : Agreed agreement a b w)
    (known : agreement.binding? t = some binding) {now : Moment (Rpc η) (Rpc ζ × τ)}
    (ended : Task.Ends (call t args (w.moment visits)) (fun _ now' => now' = now)
      fun stop now' => (∃ e, stop = .failed e) ∧ now' = now) :
    Agreed agreement a b (World.after now) := by
  obtain ⟨m, -, ⟨⟨h, now', halted⟩ | ⟨e, w', later, failed, agreed'⟩, -⟩ |
    ⟨rets, m', w', later, completed, returned | ⟨-, e, failed⟩⟩⟩ :=
      call_cases discreet agreed known args visits
  · rw [halted] at ended
    obtain ⟨⟨e, same⟩, -⟩ := ended
    cases same
  · rw [failed] at ended
    obtain ⟨-, rfl⟩ := ended
    exact agreed'
  · rw [returned] at ended
    obtain rfl := ended
    exact completed.agreed
  · rw [failed] at ended
    obtain ⟨-, rfl⟩ := ended
    exact completed.agreed

variable [Handler η τ]

/-- A call that returns is a step. -/
theorem step_of_ok (known : agreement.binding? t = some binding)
    {now : Moment (Rpc η) (Rpc ζ × τ)} (returned : call t args (w.moment visits) = .ok rets now) :
    Step agreement w (.after now) := by
  have ended : Task.Ends (call t args (w.moment visits)) (fun _ now' => now' = now)
      fun stop now' => (∃ e, stop = .failed e) ∧ now' = now := by
    rw [returned]
    rfl
  exact .forth known ended

theorem Step.agreed (left : Discreet a b η τ) (right : Discreet a b ζ τ)
    (step : Step agreement w w') (agreed : Agreed agreement a b w) :
    Agreed agreement a b w' := by
  cases step with
  | forth known ended => exact agreed_after right agreed known ended
  | back known ended => exact (agreed_after left.symm agreed.swap known ended).swap

theorem Runs.agreed (left : Discreet a b η τ) (right : Discreet a b ζ τ)
    (runs : Runs agreement w w') (agreed : Agreed agreement a b w) :
    Agreed agreement a b w' := by
  induction runs with
  | refl => exact agreed
  | tail _ step ih => exact step.agreed left right ih

/-- After any number of calls in either direction, the next call, whoever makes it, returns
what the handler of the other party returns on its arguments. -/
theorem calls_return (left : Discreet a b η τ) (right : Discreet a b ζ τ)
    (fresh : Fresh agreement a b w) (runs : Runs agreement w w') :
    CallsReturn agreement a b w' ∧ CallsReturn agreement b a w'.swap := by
  have agreed := runs.agreed left right fresh.agreed
  exact ⟨agreed.callsReturn right, agreed.swap.callsReturn left.symm⟩

/-! ### Two parties that greet each other -/

/-- A handler that gives its arguments back and counts how often it is run. -/
structure Tally where
  /-- How often it was run. -/
  calls : Nat
  deriving DecidableEq

/-- A tally leaves everything but itself alone. -/
instance (σ : Type) : Handler Tally σ where
  respond args := do
    Task.modifySelf fun tally => ⟨tally.calls + 1⟩
    return args

theorem discreet_tally : Discreet a b Tally τ := fun _ _ _ _ duplex => ⟨duplex, .refl _⟩

/-- A call that passes a string and returns one. -/
def greeting : Agreement where
  binding? t := if t = ⟨10⟩ then some ⟨⟨10⟩, [.str], [.str]⟩ else none
  simple t binding some := by
    by_cases greets : t = ⟨10⟩
    · rw [if_pos greets] at some
      rw [← Option.some.inj some]
      decide
    · rw [if_neg greets] at some
      cases some
  notSetup := rfl
  notInitiate := rfl
  asks t binding some := by
    by_cases greets : t = ⟨10⟩
    · rw [greets]
      decide
    · rw [if_neg greets] at some
      cases some

theorem greeting_eq {t : MessageType} {binding : Binding}
    (known : greeting.binding? t = some binding) : t = ⟨10⟩ ∧ binding = ⟨⟨10⟩, [.str], [.str]⟩ := by
  unfold greeting at known
  by_cases greets : t = ⟨10⟩
  · simp only [if_pos greets, Option.some.injEq] at known
    exact ⟨greets, known.symm⟩
  · simp only [if_neg greets] at known
    cases known

/-- A party with this one binding, whose pages have sixteen bytes. -/
def greeter (a b : Cap) : Rpc Tally :=
  enrolled (.joining a b) [⟨⟨10⟩, [.str], [.str]⟩]
    (({} : Table MessageType Tally).insert ⟨10⟩ ⟨0⟩) 16

/-- Two such parties over a channel that queues one message. -/
def greeters : World Tally Tally Unit :=
  ⟨(Endpoint.createPair (Machine.create 1)).2, greeter ⟨0⟩ ⟨1⟩, greeter ⟨1⟩ ⟨0⟩, ()⟩

theorem fresh_greeters : Fresh greeting ⟨0⟩ ⟨1⟩ greeters := by
  have bound : ∀ a b : Cap, ∀ t binding, greeting.binding? t = some binding →
      (greeter a b).binding? t = some binding := by
    intro a b t binding known
    obtain ⟨rfl, rfl⟩ := greeting_eq known
    rfl
  have other : ∀ binding ∈ [(⟨⟨10⟩, [.str], [.str]⟩ : Binding)], binding.type ≠ setupPage := by
    decide
  refine fresh_enrolled ⟨by decide, rfl, rfl, by decide, fun _ => rfl⟩ other other ?_ ?_ ()
  · exact bound ⟨0⟩ ⟨1⟩
  · exact bound ⟨1⟩ ⟨0⟩

/-- One of them called the other, which sets up a page; now the other calls back, which
sets up one more. -/
theorem calls_return_back : ∃ (w : World Tally Tally Unit) (w' : World Tally Tally Unit)
    (later : List (List Act)),
    Discreet ⟨0⟩ ⟨1⟩ Tally Unit ∧ Fresh greeting ⟨0⟩ ⟨1⟩ greeters ∧ Runs greeting greeters w ∧
    Proper w.swap ⟨10⟩ ⟨⟨10⟩, [.str], [.str]⟩ [.str "moin"] [[.pending], [], [.message]] ∧
    call ⟨10⟩ [.str "moin"] (w.swap.moment [[.pending], [], [.message]]) =
      .ok [.str "moin"] (w'.moment later) ∧
    w'.right.handlers.get? ⟨10⟩ = some ⟨1⟩ ∧ Duplex w'.machine ⟨1⟩ ⟨0⟩ [] [] := by
  have ran : ((Task.success? (call ⟨10⟩ [.str "hello"]
      (greeters.moment [[.message], [.message, .pending]]))).map fun done =>
        let w := (World.after done.2).swap
        (w.lacksPage ⟨10⟩ ⟨⟨10⟩, [.str], [.str]⟩, w.left.pageSize, w.pageBytes ⟨10⟩,
          w.machine.kernel.nextSlot, w.right.handlers.get? ⟨10⟩)) =
      some (true, 16, 16, 4, some ⟨0⟩) := by decide +kernel
  obtain ⟨⟨values, now⟩, returned, same⟩ := Option.map_eq_some_iff.mp ran
  simp only [Prod.mk.injEq] at same
  obtain ⟨lacks, size, bytes, slot, handler⟩ := same
  have returned := Task.success?_eq_some returned
  have known : greeting.binding? ⟨10⟩ = some ⟨⟨10⟩, [.str], [.str]⟩ := rfl
  have step : Step greeting greeters (.after now) := step_of_ok known returned
  have runs : Runs greeting greeters (.after now) := .single step
  have holds : (World.after now).swap.Holds ⟨10⟩ [.str "moin"] := by
    constructor
    · intro s mem
      obtain rfl := Value.str.inj (List.mem_singleton.mp mem)
      decide +kernel
    · rw [bytes]
      decide +kernel
  have proper : Proper (World.after now).swap ⟨10⟩ ⟨⟨10⟩, [.str], [.str]⟩ [.str "moin"]
      [[.pending], [], [.message]] := by
    refine ⟨rfl, holds, fun _ => ?_, ?_, ?_⟩
    · rw [size]
      decide
    · rw [lacks, Machine.Room, slot]
      decide
    · rw [lacks]
      decide
  obtain ⟨m, -, returns, -⟩ := (calls_return discreet_tally discreet_tally fresh_greeters runs).2
    ⟨10⟩ _ [.str "moin"] [[.pending], [], [.message]] known
  obtain ⟨w', later, returned', answered⟩ := returns proper [.str "moin"] ⟨1⟩ m ()
    ⟨⟨0⟩, [], handler, rfl⟩ rfl holds (Nat.le_of_lt_succ m.kernel.nextSlot.toNat_lt)
  refine ⟨World.after now, w', later, discreet_tally, fresh_greeters, runs, proper, returned', ?_,
    answered.idle⟩
  rw [answered.right, Table.get?_insert, if_pos rfl]

end Rpc

end Conduit

/-
# The pages of two parties agree

Two parties are at the ends of a channel without faults, and they act step by step in any order
(`Couple.Runs`); whatever either is asked to do is such steps (`Couple.runs_of_perform`). The page
that one of them has for its calls of a type is the page that the other has for them, unless the
other dropped it: a binding was registered there in place of the one that had the page
(`Couple.pages_agree`). The caller is not told, so its next call is refused
(`Couple.registering_again_refuses`).
-/

import Conduit.Proofs.Call.Couple.Steps
import Conduit.Proofs.Call.EndToEnd

namespace Conduit

/-- Others leave a channel alone, and lose nothing. -/
structure Machine.Apart (a b : Cap) (m m' : Machine) : Prop where
  channel : ∀ atA atB, Duplex m a b atA atB → Duplex m' a b atA atB
  onward : m.Numbered → m.Onward m'
  sustains : Rpc.Sustains m m'

namespace Rpc

variable {η ζ σ : Type} {a b : Cap}

/-- Two parties, and the machine that they share. -/
structure Couple (η ζ : Type) where
  left : Party η
  right : Party ζ
  machine : Machine

namespace Couple

/-- The same, looked at from the other end. -/
def swap (c : Couple η ζ) : Couple ζ η := ⟨c.right, c.left, c.machine⟩

/-- One of the two parties, or somebody else, takes a step. -/
inductive Acts (a b : Cap) : Couple η ζ → Couple η ζ → Prop
  | left {c : Couple η ζ} {events : List Event} {s : Seat η} (deal : Deal (Genuine a) True
      ⟨c.left.phase, c.left.rpc, c.machine⟩ events s) :
      Acts a b c ⟨c.left.after s.phase s.rpc, c.right, s.machine⟩
  | right {c : Couple η ζ} {events : List Event} {s : Seat ζ} (deal : Deal (Genuine b) True
      ⟨c.right.phase, c.right.rpc, c.machine⟩ events s) :
      Acts a b c ⟨c.left, c.right.after s.phase s.rpc, s.machine⟩
  | others {c : Couple η ζ} {m : Machine} (apart : c.machine.Apart a b m) :
      Acts a b c { c with machine := m }

/-- Any number of steps, in any order. -/
abbrev Runs (a b : Cap) : Couple η ζ → Couple η ζ → Prop := Relation.ReflTransGen (Acts a b)

/-! ### What holds all along -/

/-- The pages that either party has the other map, with what waits at the two ends. -/
structure Matched (a b : Cap) (c : Couple η ζ) (atA atB : List Letter) : Prop where
  duplex : Duplex c.machine a b atA atB
  forth : SetUp c.left c.right c.machine (atA.map Letter.message) (atB.map Letter.message)
  back : SetUp c.right c.left c.machine (atB.map Letter.message) (atA.map Letter.message)
  leftKnows : ∀ message, Pending c.left (atA.map Letter.message) message → Introduces b message
  rightKnows : ∀ message, Pending c.right (atB.map Letter.message) message → Introduces a message

/-- What holds of two parties at the ends of a channel, whatever they do. -/
structure Paired (a b : Cap) (c : Couple η ζ) : Prop where
  leftJoins : Joins a b c.left.rpc
  rightJoins : Joins b a c.right.rpc
  leftSound : Sound ⟨c.left.phase, c.left.rpc, c.machine⟩
  rightSound : Sound ⟨c.right.phase, c.right.rpc, c.machine⟩
  numbered : c.machine.Numbered
  matched : ∃ atA atB, Matched a b c atA atB

end Couple

/-- A party gives no endpoint but its own to its peer. -/
theorem introduces_of_deal {notices : Prop} {events : List Event} {s s' : Seat η}
    (deal : Deal (Genuine a) notices s events s') :
    ∀ message ∈ sentIn events, Introduces a message.letter.message := by
  have asked : MessageType.isResponse initiate.code = false := by decide
  intro message mem
  cases deal with
  | send posts reason =>
      obtain rfl := List.mem_singleton.mp mem
      intro tagged c carried
      rw [tag_echo] at tagged
      generalize s.phase = before at reason
      cases reason with
      | ask unmarked missing =>
          have tagged : setupPage.code = initiate.code := tagged
          exact absurd tagged (by decide)
      | @request t args _ unmarked made tagged' carries =>
          have type : t = initiate := congrArg MessageType.mk (tagged'.symm.trans tagged)
          have given := carries c carried
          rw [made.introduces type, List.mem_singleton] at given
          exact Value.cap.inj given
      | reply asked' other replies => exact absurd tagged (ne_of_responds replies asked)
      | confirm replies => exact absurd tagged (ne_of_responds replies asked)
  | _ => exact absurd mem List.not_mem_nil

/-- A message that is served was taken. -/
theorem serving_of_deal {calls : MessageType → List Value → Prop} {notices : Prop}
    {events : List Event} {s s' : Seat η} (deal : Deal calls notices s events s')
    {message : Message} (served : s'.phase = .serving message) :
    s.phase = .serving message ∨ message ∈ receivedIn events := by
  cases deal with
  | send posts reason =>
      generalize s.phase = before at reason
      cases reason with
      | _ => cases served
  | take draws picks =>
      generalize s.phase = before at picks
      cases picks with
      | serve message =>
          cases served
          exact .inr List.mem_cons_self
      | _ => cases served
  | barred => cases served
  | slotless => cases served
  | prepare => cases served
  | near => cases served
  | far => cases served
  | release => cases served
  | _ => exact .inl served

namespace Couple

variable {c c' : Couple η ζ}

theorem Paired.swap (paired : Paired a b c) : Paired b a c.swap := by
  obtain ⟨atA, atB, matched⟩ := paired.matched
  exact ⟨paired.rightJoins, paired.leftJoins, paired.rightSound, paired.leftSound,
    paired.numbered, atB, atA, matched.duplex.symm, matched.back, matched.forth,
    matched.rightKnows, matched.leftKnows⟩

/-- A step of the left party. -/
theorem Paired.left (paired : Paired a b c) {events : List Event} {s : Seat η}
    (deal : Deal (Genuine a) True ⟨c.left.phase, c.left.rpc, c.machine⟩ events s) :
    Paired a b ⟨c.left.after s.phase s.rpc, c.right, s.machine⟩ := by
  obtain ⟨atA, atB, matched⟩ := paired.matched
  have introduced : ∀ request, c.left.phase = .serving request → Introduces b request :=
    fun request served => matched.leftKnows request (.inr served)
  have carried := carried_of_deal paired.leftJoins matched.duplex paired.numbered introduced deal
  have sustains := sustains_of_deal paired.leftJoins paired.leftSound deal
  obtain ⟨lettersA, lettersB, duplex, own, other⟩ := carried.queues
  have matched' : Matched a b ⟨c.left.after s.phase s.rpc, c.right, s.machine⟩ lettersA
      lettersB := by
    constructor
    case duplex => exact duplex
    case forth =>
      exact matched.forth.asker paired.leftJoins matched.duplex carried.onward own other deal
    case back => exact matched.back.mapper carried.onward own other deal
    case leftKnows =>
      rintro message (waits | served)
      · exact matched.leftKnows message (.inl (own ▸ List.mem_append_right _ waits))
      · rcases serving_of_deal deal served with before | taken
        · exact matched.leftKnows message (.inr before)
        · exact matched.leftKnows message (.inl (own ▸ List.mem_append_left _ taken))
    case rightKnows =>
      rintro message (waits | served)
      · rw [other] at waits
        rcases List.mem_append.mp waits with old | new
        · exact matched.rightKnows message (.inl old)
        · obtain ⟨sent, mem, rfl⟩ := List.mem_map.mp new
          exact introduces_of_deal deal sent mem
      · exact matched.rightKnows message (.inr served)
  exact ⟨carried.joins, paired.rightJoins, paired.leftSound.deal deal,
    paired.rightSound.sustain sustains, carried.onward.numbered, lettersA, lettersB, matched'⟩

/-- A step of anybody. -/
theorem Paired.acts (paired : Paired a b c) (acts : Acts a b c c') : Paired a b c' := by
  cases acts with
  | left deal => exact paired.left deal
  | right deal => exact (paired.swap.left deal).swap
  | others apart =>
      obtain ⟨atA, atB, matched⟩ := paired.matched
      have onward := apart.onward paired.numbered
      have keep : ∀ {η ζ : Type} {p : Party η} {q : Party ζ} {toP toQ : List Message},
          SetUp p q c.machine toP toQ → SetUp p q _ toP toQ := fun setUp =>
        setUp.fade onward (.of_eq rfl (fun _ _ same => same) rfl) (.refl _) (Nat.le_refl _)
          (Nat.le_refl _) (Nat.le_refl _) fun _ _ pending => pending
      exact ⟨paired.leftJoins, paired.rightJoins, paired.leftSound.sustain apart.sustains,
        paired.rightSound.sustain apart.sustains, onward.numbered, atA, atB,
        apart.channel atA atB matched.duplex, keep matched.forth, keep matched.back,
        matched.leftKnows, matched.rightKnows⟩

theorem Paired.runs (paired : Paired a b c) (runs : Runs a b c c') : Paired a b c' := by
  induction runs with
  | refl => exact paired
  | tail _ acts ih => exact ih.acts acts

/-- Two parties at the ends of a channel which have set up no pages. -/
structure Fresh (a b : Cap) (c : Couple η ζ) : Prop where
  leftJoins : Joins a b c.left.rpc
  rightJoins : Joins b a c.right.rpc
  duplex : Duplex c.machine a b [] []
  leftIdle : c.left.phase = .free
  rightIdle : c.right.phase = .free
  leftBare : ∀ t side, c.left.rpc.page? t side = none
  rightBare : ∀ t side, c.right.rpc.page? t side = none
  numbered : c.machine.Numbered
  backed : Backed c.machine

theorem setUp_of_bare {p : Party η} {q : Party ζ} {m : Machine} (idle : p.phase = .free)
    (idle' : q.phase = .free) (bare : ∀ t, p.rpc.page? t .near = none) : SetUp p q m [] [] := by
  have none : requests [] + q.phase.mapping + replies [] + p.phase.holding = 0 := by
    rw [idle, idle']
    rfl
  constructor
  case one => omega
  case owed =>
    intro some
    omega
  case spoiled =>
    intro same
    cases idle.symm.trans same
  case prepared =>
    intro t frame page same
    cases idle.symm.trans same
  case request =>
    rintro message t frame (waits | served)
    · cases waits
    · cases idle'.symm.trans served
  case mapped =>
    intro t page same
    cases idle'.symm.trans same
  case reply =>
    intro some t page same
    cases idle.symm.trans same
  case granted =>
    intro t page same
    cases idle.symm.trans same
  case agree =>
    intro t page same
    cases (bare t).symm.trans same

theorem Fresh.paired (fresh : Fresh a b c) : Paired a b c := by
  have matched : Matched a b c [] [] := by
    have unknown : ∀ {η : Type} {p : Party η} {home : Cap} {message : Message}, p.phase = .free →
        Pending p [] message → Introduces home message := by
      rintro η p home message idle (waits | served)
      · cases waits
      · cases idle.symm.trans served
    constructor
    case duplex => exact fresh.duplex
    case forth =>
      exact setUp_of_bare fresh.leftIdle fresh.rightIdle fun t => fresh.leftBare t .near
    case back =>
      exact setUp_of_bare fresh.rightIdle fresh.leftIdle fun t => fresh.rightBare t .near
    case leftKnows => exact fun _ => unknown fresh.leftIdle
    case rightKnows => exact fun _ => unknown fresh.rightIdle
  have leftSound : Sound ⟨.free, c.left.rpc, c.machine⟩ := by
    obtain ⟨ep, across, -⟩ := fresh.leftJoins
    exact .of_bare fresh.leftBare fresh.backed fun chan same => by cases across.symm.trans same
  have rightSound : Sound ⟨.free, c.right.rpc, c.machine⟩ := by
    obtain ⟨ep, across, -⟩ := fresh.rightJoins
    exact .of_bare fresh.rightBare fresh.backed fun chan same => by cases across.symm.trans same
  exact ⟨fresh.leftJoins, fresh.rightJoins, fresh.leftIdle ▸ leftSound,
    fresh.rightIdle ▸ rightSound, fresh.numbered, [], [], matched⟩

/-! ### What follows for the pages -/

/-- What is written with one page is read with the other. -/
def Conveys (m : Memory) (t : MessageType) (own other : Option View) : Prop :=
  ∀ tag values message memory, Paged.encode t tag values own m = .ok (.ok message, memory) →
    Paged.decode t (values.map Value.kind) message.letter.message other memory = .ok (.ok values)

/-- A page that the left party has for its calls of a type is the page that the right party has
for them, unless it dropped the page; and then strings pass in both directions. -/
structure Agrees (c : Couple η ζ) : Prop where
  pages : ∀ t page, c.left.rpc.page? t .near = some page → c.right.Shares t page
  strings : ∀ t page, c.left.rpc.page? t .near = some page → c.right.rpc.page? t .far = some page →
    Conveys c.machine.memory t (c.left.rpc.page? t .near) (c.right.rpc.page? t .far) ∧
    Conveys c.machine.memory t (c.right.rpc.page? t .far) (c.left.rpc.page? t .near)

theorem Paired.agrees (paired : Paired a b c) : c.Agrees := by
  obtain ⟨atA, atB, matched⟩ := paired.matched
  refine ⟨matched.forth.agree, fun t page near far => ?_⟩
  have conveys : Conveys c.machine.memory t (some page) (some page) := by
    intro tag values message memory encoded
    have mapped := paired.leftSound.pages t .near
    simp only [near] at mapped
    obtain ⟨result, memory', ran, -, holds, -⟩ := Paged.encode_cases t tag values mapped
    cases ran.symm.trans encoded
    have holding := holds message rfl
    rw [holding.whole]
    exact holding.reads
  rw [near, far]
  exact ⟨conveys, conveys⟩

/-! ### What the parties are asked to do -/

/-- Whatever the left party is, the right one and others take steps. What the others of a scene
tell of the right party is up to them. -/
def Alongside (η : Type) (a b : Cap) (tells : σ → Party ζ → Prop) (scene scene' : Scene σ) : Prop :=
  ∀ (p : Party η) (q : Party ζ), tells scene.others q →
    ∃ q', tells scene'.others q' ∧ Runs a b ⟨p, q, scene.machine⟩ ⟨p, q', scene'.machine⟩

/-- The terms of the left party beside the right one. -/
def terms (η : Type) (a b : Cap) (tells : σ → Party ζ → Prop) : Terms σ :=
  ⟨Genuine a, Alongside η a b tells, True⟩

variable {tells : σ → Party ζ → Prop}

theorem runs_of_course {stage stage' : Stage η σ} {events : List Event}
    (course : Course (terms η a b tells) stage events stage')
    (lawful : ∀ turn ∈ stage.2.turns, Turn.Follows (Alongside η a b tells) turn)
    {p : Party η} {q : Party ζ} (phase : p.phase = stage.1) (rpc : p.rpc = stage.2.self)
    (told : tells stage.2.scene.others q) :
    ∃ p' q', p'.phase = stage'.1 ∧ p'.rpc = stage'.2.self ∧ tells stage'.2.scene.others q' ∧
      Runs a b ⟨p, q, stage.2.scene.machine⟩ ⟨p', q', stage'.2.scene.machine⟩ := by
  induction course with
  | nil => exact ⟨p, q, phase, rpc, told, .refl⟩
  | @next _ _ _ steps trace last ih =>
      obtain ⟨p', q', phase', rpc', told', runs⟩ := ih
      cases last with
      | @pass phase now _ paused =>
          obtain ⟨scene, rest, rfl, follows, -⟩ := Task.follows_of_pause paused fun turn mem =>
            lawful turn (Course.turns_subset trace mem)
          obtain ⟨q'', told'', more⟩ := follows p' q' told'
          exact ⟨p', q'', phase', rpc', told'', runs.trans more⟩
      | aside may =>
          obtain ⟨q'', told'', more⟩ := may p' q' told'
          exact ⟨p', q'', phase', rpc', told'', runs.trans more⟩
      | @deal before after now rpc m _ deal =>
          have deal : Deal (Genuine a) True ⟨p'.phase, p'.rpc, now.scene.machine⟩ steps
              ⟨after, rpc, m⟩ := by
            rw [phase', rpc']
            exact deal
          have acts := Acts.left (b := b) (c := ⟨p', q', now.scene.machine⟩) deal
          exact ⟨_, q', rfl, rfl, told', runs.tail acts⟩

/-- Whatever the left party is asked to do goes by steps, in between those that the right party
takes meanwhile. -/
theorem runs_of_perform [Handler η σ] (wanders : Wanders η (Alongside η a b tells))
    {op : Operation η σ} {rpc : Rpc η} {scene : Scene σ} {turns : List (Turn σ)}
    {outcome : Except Error Unit} {after : Moment (Rpc η) σ}
    (permitted : op.Permitted (terms η a b tells) rpc)
    (lawful : ∀ turn ∈ turns, Turn.Follows (Alongside η a b tells) turn)
    (completed : Task.settle op.perform ⟨rpc, scene, turns⟩ = .ok outcome after)
    {p : Party η} {q : Party ζ} (idle : p.phase = .free) (same : p.rpc = rpc)
    (told : tells scene.others q) :
    ∃ p' q', p'.phase = .free ∧ p'.rpc = after.self ∧ tells after.scene.others q' ∧
      Runs a b ⟨p, q, scene.machine⟩ ⟨p', q', after.scene.machine⟩ := by
  have leads : Leads (terms η a b tells) (Task.settle op.perform) .free ⟨rpc, scene, turns⟩
      (fun _ _ last _ => last = .free) fun _ _ _ _ => False :=
    leads_settle (leads_perform wanders permitted)
  obtain ⟨events, last, course, rfl⟩ := leads.of_ok completed
  exact runs_of_course course lawful idle same told

/-- Two parties that begin without pages agree on them wherever they get. If one of them is
asked for something there, whatever the other does meanwhile, they still agree after it. -/
theorem pages_agree [Handler η σ] (wanders : Wanders η (Alongside η a b tells))
    (fresh : Fresh a b c) (runs : Runs a b c c') :
    c'.Agrees ∧ c'.swap.Agrees ∧
    ∀ (op : Operation η σ) (others : σ) (turns : List (Turn σ)) (outcome : Except Error Unit)
      (after : Moment (Rpc η) σ), c'.left.phase = .free → tells others c'.right →
      op.Permitted (terms η a b tells) c'.left.rpc →
      (∀ turn ∈ turns, Turn.Follows (Alongside η a b tells) turn) →
      Task.settle op.perform ⟨c'.left.rpc, ⟨c'.machine, others⟩, turns⟩ = .ok outcome after →
      ∃ left right, left.phase = .free ∧ left.rpc = after.self ∧ tells after.scene.others right ∧
        Runs a b c ⟨left, right, after.scene.machine⟩ ∧
        Agrees ⟨left, right, after.scene.machine⟩ ∧
        (swap ⟨left, right, after.scene.machine⟩).Agrees := by
  have paired := fresh.paired.runs runs
  refine ⟨paired.agrees, paired.swap.agrees, ?_⟩
  intro op others turns outcome after idle told permitted lawful completed
  obtain ⟨left, right, free, same, told', more⟩ :=
    runs_of_perform wanders permitted lawful completed idle rfl told
  have paired' := paired.runs more
  exact ⟨left, right, free, same, told', runs.trans more, paired'.agrees, paired'.swap.agrees⟩

/-! ### Both at work -/

theorem Acts.swap (acts : Acts a b c c') : Acts b a c.swap c'.swap := by
  cases acts with
  | left deal => exact .right deal
  | right deal => exact .left deal
  | others apart =>
      exact .others ⟨fun atB atA duplex => (apart.channel atA atB duplex.symm).symm, apart.onward,
        apart.sustains⟩

theorem runs_swap (runs : Runs a b c c') : Runs b a c.swap c'.swap := by
  induction runs with
  | refl => exact .refl
  | tail _ acts ih => exact ih.tail acts.swap

/-- The right party does what it is asked to do, while nobody else acts. -/
def acting [Handler ζ Unit] (op : Operation ζ Unit) : Turn (Rpc ζ) := fun scene =>
  match Task.settle op.perform ⟨scene.others, ⟨scene.machine, ()⟩, []⟩ with
  | .ok _ after => .ok () ⟨after.scene.machine, after.self⟩
  | .error (.halted h) _ => .error h scene
  | .error (.failed _) _ => .ok () scene

/-- The scene has the state of the right party, which has nothing in hand. -/
def Resting (rpc : Rpc ζ) (q : Party ζ) : Prop := q.phase = .free ∧ q.rpc = rpc

theorem follows_acting [Handler ζ Unit] {op : Operation ζ Unit}
    (wanders : ∀ p : Party η, Wanders ζ (Alongside ζ b a fun (_ : Unit) x => x = p))
    (permitted : ∀ (p : Party η) rpc, op.Permitted (terms ζ b a fun (_ : Unit) x => x = p) rpc) :
    Turn.Follows (Alongside η a b Resting) (acting op) := by
  rintro scene p q ⟨idle, same⟩
  unfold Turn.after acting
  cases ran : Task.settle op.perform ⟨scene.others, ⟨scene.machine, ()⟩, []⟩ with
  | ok outcome after =>
      obtain ⟨q', p', idle', same', rfl, runs⟩ := runs_of_perform (wanders p)
        (permitted p scene.others) (fun turn mem => absurd mem List.not_mem_nil) ran idle same
        (q := p) rfl
      exact ⟨q', ⟨idle', same'⟩, runs_swap runs⟩
  | error stop after =>
      cases stop with
      | failed e => exact ⟨q, ⟨idle, same⟩, .refl⟩
      | halted h => exact ⟨q, ⟨idle, same⟩, .refl⟩

/-! ### Two parties that greet each other -/

/-- Two parties that count their calls, over a channel that queues one message. -/
def greetersApart : Couple Tally Tally where
  left := ⟨.free, greeter ⟨0⟩ ⟨1⟩, fun _ => False⟩
  right := ⟨.free, greeter ⟨1⟩ ⟨0⟩, fun _ => False⟩
  machine := (Endpoint.createPair (Machine.create 1)).2

theorem fresh_greetersApart : Fresh ⟨0⟩ ⟨1⟩ greetersApart where
  leftJoins := ⟨.joining ⟨0⟩ ⟨1⟩, rfl, rfl, rfl⟩
  rightJoins := ⟨.joining ⟨1⟩ ⟨0⟩, rfl, rfl, rfl⟩
  duplex := ⟨by decide, rfl, rfl, by decide, fun _ => rfl⟩
  leftIdle := rfl
  rightIdle := rfl
  leftBare := page?_enrolled
  rightBare := page?_enrolled
  numbered := fun _ _ known => by cases known
  backed := fun _ => mapped_none _

/-- The left party passes a string. -/
def greet : Operation Tally (Rpc Tally) := .call ⟨10⟩ [.str "hello"]

/-- The left party is about to do so for the first time, and the right one dispatches twice. -/
def strangers : Moment (Rpc Tally) (Rpc Tally) :=
  ⟨greetersApart.left.rpc, ⟨greetersApart.machine, greetersApart.right.rpc⟩,
    [acting .dispatchPending, acting .dispatchPending]⟩

/-- The page that the call sets up is the page that the other party has. -/
theorem pages_agree_greeting : ∃ (after : Moment (Rpc Tally) (Rpc Tally)) (page : View),
    Wanders Tally (Alongside Tally ⟨0⟩ ⟨1⟩ (Resting : Rpc Tally → Party Tally → Prop)) ∧
    Fresh ⟨0⟩ ⟨1⟩ greetersApart ∧ Task.settle greet.perform strangers = .ok (.ok ()) after ∧
    after.self.page? ⟨10⟩ .near = some page ∧ after.scene.others.page? ⟨10⟩ .far = some page := by
  have ran : (do
      let (_, after) ← Task.success? (greet.perform strangers)
      let _ ← after.self.page? ⟨10⟩ .near
      let _ ← after.scene.others.page? ⟨10⟩ .far
      return ()) = some () := by decide +kernel
  simp only [Option.bind_eq_bind, Option.bind_eq_some_iff] at ran
  obtain ⟨⟨⟨⟩, after⟩, returned, page, near, page', far, -⟩ := ran
  have completed := Task.settle_ok (Task.success?_eq_some returned)
  have wanders :=
    wanders_tally (Alongside Tally ⟨0⟩ ⟨1⟩ (Resting : Rpc Tally → Party Tally → Prop))
  have genuine : Genuine ⟨0⟩ ⟨10⟩ [.str "hello"] :=
    ⟨by decide, by decide, fun same => by cases same⟩
  have lawful : ∀ turn ∈ strangers.turns, Turn.Follows (Alongside Tally ⟨0⟩ ⟨1⟩ Resting) turn := by
    have follows : Turn.Follows (Alongside Tally ⟨0⟩ ⟨1⟩ (Resting : Rpc Tally → _ → _))
        (acting .dispatchPending) :=
      follows_acting (fun _ => wanders_tally _) fun _ _ => trivial
    rintro turn mem
    simp only [strangers, List.mem_cons, List.not_mem_nil, or_false, or_self] at mem
    exact mem ▸ follows
  obtain ⟨-, -, acts⟩ := pages_agree wanders fresh_greetersApart .refl
  obtain ⟨left, right, -, same, ⟨-, same'⟩, -, agrees, -⟩ :=
    acts greet _ _ _ after rfl ⟨rfl, rfl⟩ genuine lawful completed
  have shares := agrees.pages ⟨10⟩ page (same ▸ near)
  unfold Party.Shares at shares
  rw [same'] at shares
  rcases shares with shared | ⟨none, -⟩
  · exact ⟨after, page, wanders, fresh_greetersApart, completed, near, shared⟩
  · cases far.symm.trans none

/-- After such a call the right party registers its binding again. The left one still has the
page, but the right one has it no more: it takes the request of the next call, refuses it for want
of the page, and sends nothing back. -/
theorem registering_again_refuses :
    ∃ (after waiting served : Moment (Rpc Tally) _) (page : View) (right : Rpc Tally),
      Task.settle greet.perform strangers = .ok (.ok ()) after ∧
      after.self.page? ⟨10⟩ .near = some page ∧
      after.scene.others.binding? ⟨10⟩ = some ⟨⟨10⟩, [.str], [.str]⟩ ∧
      after.scene.others.register ⟨⟨10⟩, [.str], [.str]⟩ = .ok right ∧
      right.page? ⟨10⟩ .far = none ∧
      greet.perform ⟨after.self, ⟨after.scene.machine, right⟩, []⟩ =
        .error (.halted .stalled) waiting ∧
      dispatchPending ⟨right, ⟨waiting.scene.machine, ()⟩, []⟩ =
        .error (.failed (.noBufferPage ⟨10⟩)) served ∧
      served.scene.machine.kernel.pending ⟨0⟩ = 0 := by
  have ran : (do
      let (_, after) ← Task.success? (greet.perform strangers)
      let page ← after.self.page? ⟨10⟩ .near
      let right ← (after.scene.others.register ⟨⟨10⟩, [.str], [.str]⟩).toOption
      let (halt, waiting) ← Task.halted?
        (greet.perform ⟨after.self, ⟨after.scene.machine, right⟩, []⟩)
      let (e, served) ← Task.failure? (dispatchPending ⟨right, ⟨waiting.scene.machine, ()⟩, []⟩)
      return (halt, e, right.page? ⟨10⟩ .far, after.scene.others.binding? ⟨10⟩,
        served.scene.machine.kernel.pending ⟨0⟩)) =
      some (.stalled, .noBufferPage ⟨10⟩, none, some ⟨⟨10⟩, [.str], [.str]⟩, 0) := by
    decide +kernel
  simp only [Option.bind_eq_bind, Option.bind_eq_some_iff, Option.pure_def, Option.some.injEq,
    Prod.mk.injEq] at ran
  obtain ⟨⟨⟨⟩, after⟩, returned, page, near, right, registered, ⟨halt, waiting⟩, halted,
    ⟨e, served⟩, failed, rfl, rfl, far, known, silent⟩ := ran
  have registered : after.scene.others.register ⟨⟨10⟩, [.str], [.str]⟩ = .ok right := by
    cases tried : after.scene.others.register ⟨⟨10⟩, [.str], [.str]⟩ with
    | ok right' =>
        rw [tried] at registered
        cases registered
        rfl
    | error e =>
        rw [tried] at registered
        cases registered
  exact ⟨after, waiting, served, page, right, Task.settle_ok (Task.success?_eq_some returned), near,
    known, registered, far, Task.halted?_eq_some halted, Task.failure?_eq_some failed, silent⟩

end Couple

end Rpc

end Conduit

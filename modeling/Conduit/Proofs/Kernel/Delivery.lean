/-
# Every message once and in order

Each endpoint has a queue of its own. What was taken from it, followed by what still waits, is
what was accepted for it, whoever sent it and whatever else was asked of the kernel in between
(`Served.delivers` for one request). A queue never holds more messages than the kernel allows,
and a request is refused before anything is changed.
-/

import Conduit.Proofs.Kernel.Naming

namespace Conduit

namespace Kernel

/-- The endpoint at which a request leaves a message, or from which it takes one. -/
def Request.concerns : Request → Option Cap
  | inject target _ => some target
  | send ep _ _ => ep.peer
  | recv ep => some ep.home
  | _ => none

namespace Event

/-- The message that was accepted for an endpoint. -/
def accepted (cap : Cap) : Event → List Letter
  | ⟨.inject target letter, .ok _, _⟩ => if target = cap then [letter] else []
  | ⟨.send ep _ letter, .ok _, _⟩ => if ep.peer = some cap then [letter] else []
  | _ => []

/-- The message that was taken from an endpoint. -/
def taken (cap : Cap) : Event → List Letter
  | ⟨.recv ep, .ok (.letter letter), _⟩ => if ep.home = cap then [letter] else []
  | _ => []

/-- Tells whether a message was accepted that was sent with acknowledgement. -/
def acknowledged : Event → Bool
  | ⟨.send _ flags _, .ok _, _⟩ => flags.sync
  | _ => false

end Event

end Kernel

open Kernel

variable {m m' : Machine} {r : Request} {answer : Except ChannelError Reply} {slots : List Cap}
  {log : List Event} {depth : Nat}

/-! ### One request -/

theorem Kernel.waiting_of_get? {k : Kernel} {cap : Cap} {queue : List Letter}
    (held : k.queues.get? cap = some queue) : k.waiting cap = queue := by
  rw [waiting, held, Option.getD_some]

/-- Nothing waits at an endpoint that does not exist yet. -/
theorem Registered.waiting_fresh (registered : Registered log m) :
    m.kernel.waiting m.nextCap = [] := by
  have unknown := registered.fresh.1
  rw [Table.contains, Option.isSome_eq_false_iff, Option.isNone_iff_eq_none] at unknown
  rw [Kernel.waiting, unknown, Option.getD_none]

theorem Registered.waiting_opened (registered : Registered log m) :
    m.opened.kernel.waiting = m.kernel.waiting := by
  have opened : m.opened.kernel.waiting = Function.update m.kernel.waiting m.nextCap [] :=
    Machine.waiting_fetched
  rw [opened, ← registered.waiting_fresh, Function.update_eq_self]

/-- A request leaves the messages that wait as they are, puts one behind them, or takes the
first one. -/
theorem Registered.delivers (registered : Registered log m) (served : Served m r answer slots m')
    (cap : Cap) : Event.taken cap ⟨r, answer, slots⟩ ++ m'.kernel.waiting cap =
      m.kernel.waiting cap ++ Event.accepted cap ⟨r, answer, slots⟩ := by
  have idle (taken : Event.taken cap ⟨r, answer, slots⟩ = [])
      (accepted : Event.accepted cap ⟨r, answer, slots⟩ = [])
      (same : m'.kernel.waiting = m.kernel.waiting) :
      Event.taken cap ⟨r, answer, slots⟩ ++ m'.kernel.waiting cap =
        m.kernel.waiting cap ++ Event.accepted cap ⟨r, answer, slots⟩ := by
    rw [taken, accepted, same, List.nil_append, List.append_nil]
  cases served with
  | refused => cases r <;> exact idle rfl rfl rfl
  | slot _ => exact idle rfl rfl rfl
  | frame _ _ => exact idle rfl rfl rfl
  | map _ => exact idle rfl rfl rfl
  | recvSlot _ => exact idle rfl rfl rfl
  | endpoint _ => exact idle rfl rfl registered.waiting_opened
  | lone _ _ => exact idle rfl rfl registered.waiting_opened
  | channel left =>
      have first := registered.step (.endpoint (left.mono (Nat.le_succ 1)))
      exact idle rfl rfl (first.waiting_opened.trans registered.waiting_opened)
  | @queued _ target letter flags queue posts held _ =>
      have waits := Kernel.waiting_of_get? held
      rw [Machine.waiting_posted, Function.update_apply]
      obtain ⟨rfl, rfl⟩ | ⟨ep, rfl, known⟩ := Request.posts_cases posts
      · by_cases here : cap = target
        · simp [Event.taken, Event.accepted, here, waits]
        · simp [Event.taken, Event.accepted, here, Ne.symm here]
      · by_cases here : cap = target
        · simp [Event.taken, Event.accepted, known, here, waits]
        · simp [Event.taken, Event.accepted, known, here, Ne.symm here]
  | @taken ep letter rest held =>
      have waits := Kernel.waiting_of_get? held
      rw [Machine.waiting_fetched, Function.update_apply]
      by_cases here : cap = ep.home
      · simp [Event.taken, Event.accepted, here, waits]
      · simp [Event.taken, Event.accepted, here, Ne.symm here]

theorem Served.depth_eq (served : Served m r answer slots m') :
    m'.kernel.depth = m.kernel.depth := by
  cases served <;> rfl

/-- A message is accepted where the queue is not full. -/
theorem Served.accepted_cases (served : Served m r answer slots m') (cap : Cap) :
    Event.accepted cap ⟨r, answer, slots⟩ = [] ∨
      ∃ letter, Event.accepted cap ⟨r, answer, slots⟩ = [letter] ∧
        m.kernel.pending cap < m.kernel.depth := by
  cases served with
  | refused => cases r <;> exact .inl rfl
  | @queued _ target letter flags queue posts held space =>
      have room (here : target = cap) : m.kernel.pending cap < m.kernel.depth := by
        rw [← here, Kernel.pending, Kernel.waiting_of_get? held]
        exact space
      obtain ⟨rfl, rfl⟩ | ⟨ep, rfl, known⟩ := Request.posts_cases posts
      · by_cases here : target = cap
        · exact .inr ⟨letter, if_pos here, room here⟩
        · exact .inl (if_neg here)
      · by_cases here : target = cap
        · exact .inr ⟨letter, if_pos (here ▸ known), room here⟩
        · refine .inl (if_neg fun same => here ?_)
          rw [known] at same
          exact Option.some.inj same
  | _ => exact .inl rfl

/-- No queue grows beyond the bound. -/
theorem Registered.bounded (registered : Registered log m) (served : Served m r answer slots m')
    {cap : Cap} (bounded : m.kernel.pending cap ≤ m.kernel.depth) :
    m'.kernel.pending cap ≤ m.kernel.depth := by
  have lengths := congrArg List.length (registered.delivers served cap)
  rw [List.length_append, List.length_append] at lengths
  unfold Kernel.pending at bounded ⊢
  rcases served.accepted_cases cap with none | ⟨letter, one, space⟩
  · rw [none, List.length_nil] at lengths
    omega
  · unfold Kernel.pending at space
    rw [one, List.length_singleton] at lengths
    omega

theorem Served.syncSends_eq (served : Served m r answer slots m') :
    m'.kernel.syncSends =
      m.kernel.syncSends + [(⟨r, answer, slots⟩ : Event)].countP Event.acknowledged := by
  cases served with
  | refused => cases r <;> rfl
  | @queued _ _ _ flags _ posts _ _ =>
      obtain ⟨rfl, rfl⟩ | ⟨ep, rfl, -⟩ := Request.posts_cases posts
      · rfl
      · cases sync : flags.sync <;> simp [Machine.posted, Event.acknowledged, sync]
  | _ => rfl

/-- A request that has nothing to do with an endpoint brings it no message and takes none. -/
theorem Kernel.Event.elsewhere {cap : Cap} (other : r.concerns ≠ some cap) :
    Event.taken cap ⟨r, answer, slots⟩ = [] ∧ Event.accepted cap ⟨r, answer, slots⟩ = [] := by
  cases r with
  | inject target letter =>
      refine ⟨rfl, ?_⟩
      cases answer with
      | error e => rfl
      | ok reply => exact if_neg fun here => other (congrArg some here)
  | send ep flags letter =>
      refine ⟨rfl, ?_⟩
      cases answer with
      | error e => rfl
      | ok reply => exact if_neg other
  | recv ep =>
      refine ⟨?_, rfl⟩
      rcases answer with e | reply
      · rfl
      · cases reply with
        | letter letter => exact if_neg fun here => other (congrArg some here)
        | _ => rfl
  | _ => exact ⟨rfl, rfl⟩

/-! ### What a kernel answers -/

/-- What a kernel answers whose queues hold at most `bound` messages, to whoever has a message
queued and to whoever takes one. -/
structure Kernel.Answers (bound : Nat) (m : Machine) : Prop where
  unbound : ∀ (ep : Endpoint) flags letter, ep.peer = none →
    m.serve (.send ep flags letter) = .ok (.error .notConnected, m)
  unknown : ∀ (r : Request) target letter flags, r.posts = some (target, letter, flags) →
    m.kernel.queues.contains target = false → m.serve r = .ok (.error .noSuchEndpoint, m)
  /-- Exactly a queue that is full refuses for the moment. -/
  full : ∀ (r : Request) target letter flags, r.posts = some (target, letter, flags) →
    m.kernel.queues.contains target = true →
      (m.serve r = .ok (.error .transient, m) ↔ m.kernel.pending target = bound)
  space : ∀ (r : Request) target letter flags, r.posts = some (target, letter, flags) →
    m.kernel.queues.contains target = true → m.kernel.pending target < bound →
      m.serve r = .ok (.ok .done, m.posted target (m.kernel.waiting target ++ [letter]) flags)
  nowhere : ∀ ep : Endpoint, m.kernel.queues.contains ep.home = false →
    m.serve (.recv ep) = .ok (.error .noSuchEndpoint, m)
  empty : ∀ ep : Endpoint, m.kernel.queues.contains ep.home = true →
    m.kernel.waiting ep.home = [] → m.serve (.recv ep) = .ok (.error .noMessage, m)
  oldest : ∀ (ep : Endpoint) letter rest, m.kernel.waiting ep.home = letter :: rest →
    m.serve (.recv ep) = .ok (.ok (.letter letter), m.fetched ep.home rest)

theorem Kernel.get?_of_contains {k : Kernel} {cap : Cap} (known : k.queues.contains cap = true) :
    k.queues.get? cap = some (k.waiting cap) := by
  obtain ⟨queue, held⟩ := Option.isSome_iff_exists.mp known
  rw [held, waiting_of_get? held]

theorem Machine.Quiet.answers (quiet : m.Quiet) {bound : Nat} (depth : m.kernel.depth = bound)
    (bounded : ∀ cap, m.kernel.pending cap ≤ bound) : Kernel.Answers bound m where
  unbound _ flags letter unbound := Machine.serve_unbound quiet unbound flags letter
  unknown r target letter flags posts unknown := by
    rw [Table.contains, Option.isSome_eq_false_iff, Option.isNone_iff_eq_none] at unknown
    rw [Machine.serve_post quiet posts]
    simp only [Machine.onKernel_, Machine.onKernel, Kernel.enqueue, unknown]
    rfl
  full r target letter flags posts known := by
    rw [Machine.serve_post quiet posts]
    simp only [Machine.onKernel_, Machine.onKernel, Kernel.enqueue, Kernel.get?_of_contains known,
      depth]
    have most := bounded target
    unfold Kernel.pending at most ⊢
    by_cases full : (m.kernel.waiting target).length ≥ bound
    · simp only [if_pos full]
      exact iff_of_true rfl (by omega)
    · simp only [if_neg full]
      refine iff_of_false (fun same => ?_) (by omega)
      cases same
  space r target letter flags posts known space := by
    have room : ¬ (m.kernel.waiting target).length ≥ m.kernel.depth := by
      rw [depth]
      exact Nat.not_le_of_lt space
    rw [Machine.serve_post quiet posts]
    simp only [Machine.onKernel_, Machine.onKernel, Kernel.enqueue, Kernel.get?_of_contains known,
      if_neg room]
    rfl
  nowhere ep unknown := by
    rw [Table.contains, Option.isSome_eq_false_iff, Option.isNone_iff_eq_none] at unknown
    simp only [Machine.serve, Endpoint.recv, Endpoint.unlessFault, quiet.nextFault,
      Machine.onKernel, Kernel.dequeue, unknown]
    rfl
  empty ep known none := by
    have held := Kernel.get?_of_contains known
    rw [none] at held
    have refused := Endpoint.recv_nil (quiet.spares ep.home .recv) held
    simp only [Machine.serve, refused]
    rfl
  oldest ep letter rest waits := by
    have received := Endpoint.recv_cons (quiet.spares ep.home .recv)
      (Kernel.get?_of_waiting waits)
    simp only [Machine.serve, received]
    rfl

/-! ### Any requests -/

/-- After the requests of a log, the messages of every endpoint are accounted for, and the next
request is answered by what waits at the endpoint that it concerns. -/
structure Delivery (depth : Nat) (log : List Event) (m : Machine) : Prop where
  endpoints : ∀ cap, m.kernel.queues.contains cap = true ↔ cap ∈ log.flatMap Event.endpoints
  /-- What was taken from an endpoint, and then what waits there, is what was accepted for it. -/
  conserved : ∀ cap, log.flatMap (Event.taken cap) ++ m.kernel.waiting cap =
    log.flatMap (Event.accepted cap)
  bounded : ∀ cap, m.kernel.pending cap ≤ max depth 1
  acknowledged : m.kernel.syncSends = log.countP Event.acknowledged
  answers : Kernel.Answers (max depth 1) m
  /-- A refusal changes no queue and no count, and nothing else but that a channel which lacks its
  second end leaves the first. -/
  refused : ∀ r e m', m.serve r = .ok (.error e, m') →
    m'.kernel.waiting = m.kernel.waiting ∧ m'.kernel.syncSends = m.kernel.syncSends ∧
      m'.kernel.recvSlots = m.kernel.recvSlots ∧ (r ≠ .channel → m' = m)
  /-- A request changes no queue but that of the endpoint it concerns. -/
  elsewhere : ∀ r answer m', m.serve r = .ok (answer, m') → ∀ cap, r.concerns ≠ some cap →
    m'.kernel.waiting cap = m.kernel.waiting cap

/-- What has to be known of a log and a machine for the next request. -/
structure Delivering (depth : Nat) (log : List Event) (m : Machine) : Prop where
  registered : Registered log m
  depth_eq : m.kernel.depth = max depth 1
  conserved : ∀ cap, log.flatMap (Event.taken cap) ++ m.kernel.waiting cap =
    log.flatMap (Event.accepted cap)
  bounded : ∀ cap, m.kernel.pending cap ≤ max depth 1
  acknowledged : m.kernel.syncSends = log.countP Event.acknowledged

namespace Delivering

theorem create (depth : Nat) : Delivering depth [] (Machine.create depth) where
  registered := .create depth
  depth_eq := rfl
  conserved _ := rfl
  bounded _ := Nat.zero_le _
  acknowledged := rfl

theorem step (delivering : Delivering depth log m) (served : Served m r answer slots m') :
    Delivering depth (log ++ [⟨r, answer, slots⟩]) m' where
  registered := delivering.registered.step served
  depth_eq := served.depth_eq.trans delivering.depth_eq
  conserved cap := by
    rw [List.flatMap_append, List.flatMap_append, List.flatMap_singleton, List.flatMap_singleton,
      List.append_assoc, delivering.registered.delivers served, ← List.append_assoc,
      delivering.conserved]
  bounded cap := by
    have bounded := delivering.bounded cap
    rw [← delivering.depth_eq] at bounded ⊢
    exact delivering.registered.bounded served bounded
  acknowledged := by
    rw [served.syncSends_eq, delivering.acknowledged, List.countP_append]

theorem delivery (delivering : Delivering depth log m) (quiet : m.Quiet) :
    Delivery depth log m where
  endpoints := delivering.registered.endpoints
  conserved := delivering.conserved
  bounded := delivering.bounded
  acknowledged := delivering.acknowledged
  answers := quiet.answers delivering.depth_eq delivering.bounded
  refused r e m' refused := by
    have served := Machine.serve_served quiet refused
    generalize m.kernel.slotsFor r.demand = slots at served
    refine ⟨?_, ?_, ?_, Machine.serve_refused quiet refused⟩
    · cases served with
      | refused => rfl
      | lone _ _ => exact delivering.registered.waiting_opened
    · cases served <;> rfl
    · cases served <;> rfl
  elsewhere r answer m' served cap other := by
    have delivers := delivering.registered.delivers (Machine.serve_served quiet served) cap
    obtain ⟨taken, accepted⟩ := Kernel.Event.elsewhere other
    rw [taken, accepted, List.nil_append, List.append_nil] at delivers
    exact delivers

end Delivering

/-- Whatever a kernel is asked for in whatever order, each endpoint is a queue of the depth that the
kernel was made with, of one message at least: it loses no message that was accepted for it, gives
them in order, and refuses them only while it is full. All requests return, unless one asks for a
frame that no memory could hold. -/
theorem Kernel.queues_deliver (depth : Nat) (requests : List Request) :
    (∃ log m, (Machine.create depth).serveAll requests = .ok (log, m) ∧
        log.map Event.request = requests ∧ Delivery depth log m) ∨
      (Machine.create depth).serveAll requests = .error .tooLarge ∧
        ∃ bytes, .frame bytes ∈ requests ∧ Memory.wordLimit ≤ Word.countFor bytes := by
  have quiet : (Machine.create depth).Quiet := fun _ => rfl
  rcases Machine.serveAll_keeps (Delivering depth) Delivering.step quiet (.create depth)
    requests with ⟨log, m, ran, asked, quiet, delivering⟩ | panics
  · exact .inl ⟨log, m, ran, asked, delivering.delivery quiet⟩
  · exact .inr panics

end Conduit

/-
# Which answer a call takes

A client and a server share a channel. The client makes calls and serves messages in any
order, the server and everybody else act at any time, also while the client waits, and
the kernel may refuse whatever it is asked for. As long as no call gives up, a call that
returns takes the answer to its own request, and a call that is made while an answer is
owed fails at once and does nothing (`calls_answered`).

A call gives up if the kernel refuses to let it receive, for more than the moment, while
its answer is owed. The mark is taken away then, and what was owed is still on its way:
the next call of the same type takes it for its own answer (`stale_answer`).
-/

import Conduit.Proofs.Call.Serving

namespace Conduit

namespace Rpc

variable {η θ : Type}

/-- A client, and everything else. -/
structure Exchange (η θ : Type) where
  /-- The client. -/
  client : Rpc η
  /-- The machine and the server. -/
  scene : Scene (Server θ)

namespace Exchange

/-- The client is at its end of the channel and nothing is owed. -/
structure Settled (ch : Channel) (x : Exchange η θ) : Prop where
  wired : ch.Wired x.client
  unmarked : x.client.awaiting = none
  guarded : ch.Guarded x.scene
  nothing : ¬ ch.Owed x.scene

/-- The client does what it likes with its bindings and handlers, makes a call, or serves
messages; the others act, on their own or while the client waits. Whether a call may give
up is left open. -/
inductive Step [Handler η (Server θ)] (ch : Channel) (mayGiveUp : Prop) :
    Exchange η θ → Exchange η θ → Prop
  | others {x : Exchange η θ} {scene : Scene (Server θ)} (honest : Honest ch x.scene scene) :
      Step ch mayGiveUp x ⟨x.client, scene⟩
  | configure {x : Exchange η θ} {rpc : Rpc η} (transport : rpc.transport = x.client.transport)
      (mark : rpc.awaiting = x.client.awaiting) : Step ch mayGiveUp x ⟨rpc, x.scene⟩
  | call {x : Exchange η θ} {turns : List (Turn (Server θ))} {now : Moment (Rpc η) (Server θ)}
      (t : MessageType) (args : List Value)
      (lawful : ∀ turn ∈ turns, Turn.Follows (Honestly ch) turn)
      (ended : Task.Ends (call t args ⟨x.client, x.scene, turns⟩) (fun _ now' => now' = now)
        fun stop now' => now' = now ∧ (ch.GaveUp stop now.scene → mayGiveUp)) :
      Step ch mayGiveUp x ⟨now.self, now.scene⟩
  | onMessage {x : Exchange η θ} {turns : List (Turn (Server θ))}
      {now : Moment (Rpc η) (Server θ)}
      (lawful : ∀ turn ∈ turns, Turn.Follows (Honestly ch) turn)
      (ended : Task.Ends (onMessage ⟨x.client, x.scene, turns⟩) (fun _ now' => now' = now)
        fun _ now' => now' = now) :
      Step ch mayGiveUp x ⟨now.self, now.scene⟩
  | dispatchPending {x : Exchange η θ} {turns : List (Turn (Server θ))}
      {now : Moment (Rpc η) (Server θ)}
      (lawful : ∀ turn ∈ turns, Turn.Follows (Honestly ch) turn)
      (ended : Task.Ends (dispatchPending ⟨x.client, x.scene, turns⟩)
        (fun _ now' => now' = now) fun _ now' => now' = now) :
      Step ch mayGiveUp x ⟨now.self, now.scene⟩

/-- Any number of steps. -/
def Runs [Handler η (Server θ)] (ch : Channel) (mayGiveUp : Prop) :
    Exchange η θ → Exchange η θ → Prop :=
  Relation.ReflTransGen (Step ch mayGiveUp)

/-- Whatever call is made now: if it returns, it returns the answer to its own request,
and if an answer is owed, it fails at once and does nothing. -/
def Answering (ch : Channel) (x : Exchange η θ) : Prop :=
  ∀ (t : MessageType) (args : List Value) (turns : List (Turn (Server θ))),
    (∀ turn ∈ turns, Turn.Follows (Honestly ch) turn) →
    (∀ values now, call t args ⟨x.client, x.scene, turns⟩ = .ok values now →
      ∃ binding, x.client.binding? t = some binding ∧
        Fulfilled t args binding.rets x.scene.others.answered values now) ∧
    (ch.Owed x.scene → call t args ⟨x.client, x.scene, turns⟩ =
      .error (.failed .callInProgress) ⟨x.client, x.scene, turns⟩)

variable {ch : Channel} {x x' : Exchange η θ}

theorem Settled.faithful (settled : x.Settled ch) : Faithful ch x.client x.scene := by
  refine ⟨settled.wired, ?_⟩
  rw [settled.unmarked]
  obtain ⟨unanswered, uncollected⟩ := not_or.mp settled.nothing
  refine ⟨(ch.account x.scene).answered, settled.guarded, ?_⟩
  cases account : ch.account x.scene with
  | mk u c l =>
      rw [account] at unanswered uncollected
      simp only [ne_eq, not_not] at unanswered uncollected
      rw [unanswered, uncollected]

theorem answering_of_faithful (faithful : Faithful ch x.client x.scene) : x.Answering ch := by
  intro t args turns lawful
  constructor
  · intro values now returned
    have ends : Task.Ends (call t args ⟨x.client, x.scene, turns⟩) _ _ :=
      ends_call faithful lawful t args
    rw [returned] at ends
    exact ends.2
  · intro owed
    have outstanding := faithful.marked_of_owed owed
    unfold call
    rw [Task.self_bind, if_pos outstanding]
    rfl

variable [Handler η (Server θ)]

theorem Step.faithful (honest : HonestHandlers ch η θ) (step : Step ch False x x')
    (faithful : Faithful ch x.client x.scene) : Faithful ch x'.client x'.scene := by
  cases step with
  | others step => exact (lasting_faithful _).kept _ _ faithful (.single step)
  | configure transport mark =>
      obtain ⟨⟨ep, across, ends⟩, marked⟩ := faithful
      exact ⟨⟨ep, transport.trans across, ends⟩, mark ▸ marked⟩
  | call t args lawful ended =>
      refine ended.elim (ends_call faithful lawful t args) ?_ ?_
      · rintro values now' rfl ends
        exact ends.1
      · rintro stop now' ⟨rfl, never⟩ (faithful | gaveUp)
        · exact faithful
        · exact (never gaveUp).elim
  | onMessage lawful ended =>
      refine ended.elim (keeps_onMessage honest _ ⟨faithful, lawful⟩) ?_ ?_
      · rintro dispatch now' rfl among
        exact among.here
      · rintro stop now' rfl among
        exact among.here
  | dispatchPending lawful ended =>
      refine ended.elim (keeps_dispatchPending honest _ ⟨faithful, lawful⟩) ?_ ?_
      · rintro dispatch now' rfl among
        exact among.here
      · rintro stop now' rfl among
        exact among.here

theorem Runs.faithful (honest : HonestHandlers ch η θ) (runs : Runs ch False x x')
    (faithful : Faithful ch x.client x.scene) : Faithful ch x'.client x'.scene := by
  induction runs with
  | refl => exact faithful
  | tail _ step ih => exact step.faithful honest ih

/-- A run in which no call gives up leads to an exchange in which every call that returns
takes the answer to its own request, and no call is made while an answer is owed. -/
theorem calls_answered (honest : HonestHandlers ch η θ) (settled : x.Settled ch)
    (runs : Runs ch False x x') : x'.Answering ch :=
  answering_of_faithful (runs.faithful honest settled.faithful)

/-! ### An exchange -/

/-- The turn in which the server takes a request and answers it, if it owes nothing. -/
def answering (ch : Channel) (respond : Letter → Letter) : Turn (Server θ) := fun scene =>
  match scene.machine.kernel.waiting ch.server, scene.others.held with
  | request :: rest, [] =>
      if request.isReply then .ok () scene
      else
        let m := scene.machine.fetched ch.server rest
        .ok () ⟨m.posted ch.client (m.kernel.waiting ch.client ++ [respond request]) SendFlags.none,
          { scene.others with
            answered := scene.others.answered ++ [(request, respond request)] }⟩
  | _, _ => .ok () scene

/-- The turn in which nobody does anything. -/
def resting : Turn (Server θ) := fun scene => .ok () scene

theorem follows_answering {respond : Letter → Letter}
    (answers : ∀ request, (respond request).Answers request) :
    Turn.Follows (Honestly ch) (answering ch respond : Turn (Server θ)) := by
  rintro ⟨m, own, held, answered⟩
  unfold Turn.after answering
  cases waits : m.kernel.waiting ch.server with
  | nil =>
      simp only
      exact .refl
  | cons request rest =>
      cases held with
      | cons older others =>
          simp only
          exact .refl
      | nil =>
          simp only
          by_cases reply : request.isReply = true
          · simp only [if_pos reply]
            exact .refl
          · simp only [if_neg reply]
            have kept : [request].filter (!·.isReply) = [request] :=
              List.filter_cons_of_pos (by simpa using reply)
            have take := Honest.take (s := ⟨own, [], answered⟩) waits Machine.waiting_fetched
            simp only [kept] at take
            exact .tail (.single take)
              (.answer (s := ⟨own, [request], answered⟩) rfl (answers request)
                Machine.waiting_posted)

/-- The answer that repeats the request. -/
def echo (request : Letter) : Letter :=
  Message.letter { words :=
    MessageType.responseTag ⟨request.tag⟩ :: request.words.toList.tail }

theorem answers_echo (request : Letter) : (echo request).Answers request := Message.tag_letter _

/-- A party without handlers. -/
instance (σ : Type) : Handler Empty σ where
  respond _ := pure []

theorem honestHandlers_empty : HonestHandlers ch Empty θ := fun _ _ => Task.Keeps.pure []

/-- A channel between the first two slots. -/
def duct : Channel := ⟨⟨1⟩, ⟨0⟩, by decide⟩

/-- A client that may call for one word and get one, and whose endpoint refuses to
receive as planned. -/
def planned (plan : FaultPlan) : Exchange Empty Unit where
  client :=
    let rpc : Rpc Empty := create (.endpoint { home := ⟨1⟩, peer := some ⟨0⟩ })
    { rpc with entries := rpc.entries.insert ⟨10⟩ { binding := ⟨⟨10⟩, [.word], [.word]⟩ } }
  scene.machine := (Endpoint.createPair (Machine.create 1)).2.planFaults
    (.endpoint ⟨1⟩ .recv) plan
  scene.others := { own := () }

theorem settled_planned (plan : FaultPlan) : (planned plan).Settled duct where
  wired := ⟨_, rfl, rfl, rfl⟩
  unmarked := rfl
  guarded := fun letter mem => absurd mem List.not_mem_nil
  nothing := by
    rintro (owed | owed)
    · exact owed rfl
    · exact owed rfl

/-- A call gives up because the kernel refuses it once. The answer comes, and the next
call, with another word, returns the first one's answer, although its own request was not
answered. -/
theorem stale_answer : ∃ (last : Exchange Empty Unit) (now : Moment (Rpc Empty) (Server Unit)),
    (planned [some .invalidCap]).Settled duct ∧
    (planned [some .invalidCap]).Runs duct True last ∧ duct.Owed last.scene ∧
    call ⟨10⟩ [.word 2] ⟨last.client, last.scene, []⟩ = .ok [.word 1] now ∧
    now.scene.others.answered = last.scene.others.answered ∧ ¬ last.Answering duct := by
  have ran : ((Task.failure? (call ⟨10⟩ [.word 1] ⟨(planned [some .invalidCap]).client,
        (planned [some .invalidCap]).scene, [answering duct echo]⟩)).bind fun failed =>
      (Task.success? (call ⟨10⟩ [.word 2] ⟨failed.2.self, failed.2.scene, []⟩)).map fun returned =>
        (failed.1, returned.1, (duct.account failed.2.scene).uncollected.isEmpty,
          decide (returned.2.scene.others.answered = failed.2.scene.others.answered))) =
      some (.kernel .invalidCap, [.word 1], false, true) := by decide +kernel
  obtain ⟨⟨e, now⟩, failed, again⟩ := Option.bind_eq_some_iff.mp ran
  obtain ⟨⟨values, now'⟩, returned, same⟩ := Option.map_eq_some_iff.mp again
  simp only [Prod.mk.injEq, decide_eq_true_eq] at same
  obtain ⟨rfl, rfl, waits, answered⟩ := same
  have failed := Task.failure?_eq_some failed
  have returned := Task.success?_eq_some returned
  have owed : duct.Owed now.scene := .inr (by simpa using waits)
  have lawful : ∀ turn ∈ [(answering duct echo : Turn (Server Unit))],
      Turn.Follows (Honestly duct) turn := fun turn mem =>
    List.mem_singleton.mp mem ▸ follows_answering answers_echo
  have runs : (planned [some .invalidCap]).Runs duct True ⟨now.self, now.scene⟩ := by
    refine .single (.call ⟨10⟩ [.word 1] lawful ?_)
    rw [failed]
    exact ⟨rfl, fun _ => trivial⟩
  refine ⟨⟨now.self, now.scene⟩, now', settled_planned _, runs, owed, returned, answered, ?_⟩
  intro always
  have refused := (always ⟨10⟩ [.word 2] [] (fun _ mem => absurd mem List.not_mem_nil)).2 owed
  cases returned.symm.trans refused

/-- A refusal for the moment is no reason to give up: two calls, one after the other,
each return what the server answered to them. -/
theorem calls_answered_again : ∃ (last : Exchange Empty Unit)
    (now : Moment (Rpc Empty) (Server Unit)),
    HonestHandlers duct Empty Unit ∧ (planned [some .transient]).Settled duct ∧
    (planned [some .transient]).Runs duct False last ∧
    Turn.Follows (Honestly duct) (answering duct echo : Turn (Server Unit)) ∧
    call ⟨10⟩ [.word 2] ⟨last.client, last.scene, [answering duct echo]⟩ = .ok [.word 2] now ∧
    Fulfilled ⟨10⟩ [.word 2] [.word] last.scene.others.answered [.word 2] now := by
  have ran : ((Task.success? (call ⟨10⟩ [.word 1] ⟨(planned [some .transient]).client,
        (planned [some .transient]).scene,
        [answering duct echo, resting]⟩)).bind fun first =>
      (Task.success? (call ⟨10⟩ [.word 2]
        ⟨first.2.self, first.2.scene, [answering duct echo]⟩)).map fun second =>
        (second.1, first.2.self.binding? ⟨10⟩)) =
      some ([.word 2], some ⟨⟨10⟩, [.word], [.word]⟩) := by decide +kernel
  obtain ⟨⟨values, now⟩, first, again⟩ := Option.bind_eq_some_iff.mp ran
  obtain ⟨⟨values', now'⟩, second, same⟩ := Option.map_eq_some_iff.mp again
  simp only [Prod.mk.injEq] at same
  obtain ⟨rfl, bound⟩ := same
  have first := Task.success?_eq_some first
  have second := Task.success?_eq_some second
  have echoes : Turn.Follows (Honestly duct) (answering duct echo : Turn (Server Unit)) :=
    follows_answering answers_echo
  have later : ∀ turn ∈ [(answering duct echo : Turn (Server Unit))],
      Turn.Follows (Honestly duct) turn := fun turn mem => List.mem_singleton.mp mem ▸ echoes
  have lawful : ∀ turn ∈ [(answering duct echo : Turn (Server Unit)), resting],
      Turn.Follows (Honestly duct) turn := by
    intro turn mem
    rcases List.mem_cons.mp mem with rfl | mem
    · exact echoes
    · rw [List.mem_singleton.mp mem]
      exact fun scene => .refl
  have runs : (planned [some .transient]).Runs duct False ⟨now.self, now.scene⟩ := by
    refine .single (.call ⟨10⟩ [.word 1] lawful ?_)
    rw [first]
    rfl
  have answering := calls_answered honestHandlers_empty (settled_planned _) runs
  obtain ⟨binding, known, fulfilled⟩ := (answering ⟨10⟩ [.word 2] _ later).1 _ _ second
  obtain rfl := Option.some.inj (bound.symm.trans known)
  exact ⟨⟨now.self, now.scene⟩, now', honestHandlers_empty, settled_planned _, runs, echoes, second,
    fulfilled⟩

end Exchange

end Rpc

end Conduit

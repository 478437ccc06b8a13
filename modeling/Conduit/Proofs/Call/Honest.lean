/-
# A server that answers honestly

A client calls a server over one capability channel. The server takes requests and
answers them in the order in which it took them, each at most once and under the tag
of its reply; it may also ask for something itself. `Honest` is a single step of such
a server, or of anybody else who leaves the channel alone. Nothing is said about when
the steps come, so a server may hold any number of requests back.

What is owed on the channel is an `Account`: requests without an answer, and replies
that were not received. The client keeps of it only the type of the call whose reply
it waits for. `Faithful` is the invariant that makes this enough: without the mark
nothing is owed, and with it at most the answer to one request of that type.

* `Honest.move`, `lasting_owes` — what a step of the server does to what is owed.
* `Channel.Clear.send` — what is owed after a request.
* `Channel.Owes.receive` — what a letter that the client receives can be.
-/

import Conduit.Call.Rpc
import Conduit.Proofs.Call.Transfer
import Mathlib.Logic.Relation

namespace Conduit

/-- The reply to some request. -/
def Letter.isReply (letter : Letter) : Bool := MessageType.isResponse letter.tag

/-- The letter answers the request. -/
def Letter.Answers (reply request : Letter) : Prop :=
  reply.tag = MessageType.responseTag ⟨request.tag⟩

theorem Letter.Answers.isReply {reply request : Letter} (answers : reply.Answers request) :
    reply.isReply = true := by
  unfold Letter.isReply
  rw [answers]
  exact MessageType.isResponse_responseTag _

namespace Rpc

variable {η θ : Type}

/-- The ends of a channel: letters to the server wait at one, letters to the client at
the other. -/
structure Channel where
  /-- The end of the client. -/
  client : Cap
  /-- The end of the server. -/
  server : Cap
  apart : client ≠ server

/-- A server with what it owes and what it did. -/
structure Server (θ : Type) where
  /-- Its own state. -/
  own : θ
  /-- The requests that it took and did not answer yet, the oldest first. -/
  held : List Letter := []
  /-- The requests that it answered, with the answers. -/
  answered : List (Letter × Letter) := []

/-- A letter that gives the client a new peer can only name the one it has. -/
def Channel.Admits (ch : Channel) (letter : Letter) : Prop :=
  letter.tag = initiate.code → ∀ cap, letter.cap = some cap → cap = ch.server

/-- One step of an honest server, or of somebody who leaves the channel alone. -/
inductive Honest (ch : Channel) : Scene (Server θ) → Scene (Server θ) → Prop
  | take {m m' : Machine} {s : Server θ} {letter : Letter} {rest : List Letter}
      (first : m.kernel.waiting ch.server = letter :: rest)
      (moved : m'.kernel.waiting = Function.update m.kernel.waiting ch.server rest) :
      Honest ch ⟨m, s⟩
        ⟨m', { s with held := s.held ++ [letter].filter (!·.isReply) }⟩
  | answer {m m' : Machine} {s : Server θ} {request reply : Letter} {rest : List Letter}
      (first : s.held = request :: rest) (answers : reply.Answers request)
      (moved : m'.kernel.waiting =
        Function.update m.kernel.waiting ch.client (m.kernel.waiting ch.client ++ [reply])) :
      Honest ch ⟨m, s⟩
        ⟨m', { s with held := rest, answered := s.answered ++ [(request, reply)] }⟩
  | refuse {m : Machine} {s : Server θ} {request : Letter} {rest : List Letter}
      (first : s.held = request :: rest) : Honest ch ⟨m, s⟩ ⟨m, { s with held := rest }⟩
  | ask {m m' : Machine} {s : Server θ} {letter : Letter} (asks : letter.isReply = false)
      (admitted : ch.Admits letter)
      (moved : m'.kernel.waiting =
        Function.update m.kernel.waiting ch.client (m.kernel.waiting ch.client ++ [letter])) :
      Honest ch ⟨m, s⟩ ⟨m', s⟩
  | other {m m' : Machine} {s : Server θ} (own : θ)
      (atClient : m'.kernel.waiting ch.client = m.kernel.waiting ch.client)
      (atServer : m'.kernel.waiting ch.server = m.kernel.waiting ch.server) :
      Honest ch ⟨m, s⟩ ⟨m', { s with own }⟩

/-- What the others do in one turn. -/
abbrev Honestly (ch : Channel) : Scene (Server θ) → Scene (Server θ) → Prop :=
  Relation.ReflTransGen (Honest ch)

/-! ### What is owed -/

/-- What is owed on a channel, and what was answered. -/
structure Account where
  /-- The requests that were neither answered nor refused. -/
  unanswered : List Letter
  /-- The replies that were not received. -/
  uncollected : List Letter
  /-- The requests that were answered, with the answers. -/
  answered : List (Letter × Letter)

/-- An account on which nothing is owed. -/
abbrev Account.clear (answered : List (Letter × Letter)) : Account := ⟨[], [], answered⟩

/-- The account of a channel. -/
def Channel.account (ch : Channel) (scene : Scene (Server θ)) : Account where
  unanswered :=
    scene.others.held ++ (scene.machine.kernel.waiting ch.server).filter (!·.isReply)
  uncollected := (scene.machine.kernel.waiting ch.client).filter Letter.isReply
  answered := scene.others.answered

/-- The answer to an earlier request is queued or may still come. -/
def Channel.Owed (ch : Channel) (scene : Scene (Server θ)) : Prop :=
  (ch.account scene).unanswered ≠ [] ∨ (ch.account scene).uncollected ≠ []

/-- What a step of the server does to the account. -/
inductive Account.Move : Account → Account → Prop
  | none (a : Account) : Move a a
  | answer {request reply : Letter} {u c : List Letter} {l : List (Letter × Letter)}
      (answers : reply.Answers request) :
      Move ⟨request :: u, c, l⟩ ⟨u, c ++ [reply], l ++ [(request, reply)]⟩
  | refuse {request : Letter} {u c : List Letter} {l : List (Letter × Letter)} :
      Move ⟨request :: u, c, l⟩ ⟨u, c, l⟩

/-- After a request, the account holds it, or its answer, or neither. -/
inductive Account.Owes (request : Letter) (before : List (Letter × Letter)) : Account → Prop
  | asked : Owes request before ⟨[request], [], before⟩
  | answered {reply : Letter} (answers : reply.Answers request) :
      Owes request before ⟨[], [reply], before ++ [(request, reply)]⟩
  | settled (after : List (Letter × Letter)) : Owes request before (.clear after)

variable {ch : Channel} {scene scene' : Scene (Server θ)} {m m' : Machine} {s : Server θ}
  {a a' : Account} {request letter : Letter} {rest : List Letter}
  {before answered : List (Letter × Letter)}

theorem Honest.move (honest : Honest ch scene scene') :
    Account.Move (ch.account scene) (ch.account scene') := by
  have apart := ch.apart
  cases honest with
  | @take m m' s letter rest first moved =>
      have same : ch.account ⟨m', { s with held := s.held ++ [letter].filter (!·.isReply) }⟩ =
          ch.account ⟨m, s⟩ := by
        simp only [Channel.account, moved, first, Function.update_self,
          Function.update_of_ne apart, List.append_assoc, ← List.filter_append,
          List.singleton_append]
      rw [same]
      exact .none _
  | @answer m m' s request reply rest first answers moved =>
      simp only [Channel.account, moved, first, Function.update_self,
        Function.update_of_ne apart.symm, List.filter_append, List.cons_append,
        List.filter_cons_of_pos answers.isReply, List.filter_nil]
      exact .answer answers
  | refuse first =>
      simp only [Channel.account, first, List.cons_append]
      exact .refuse
  | @ask m m' s letter asks admitted moved =>
      have same : ch.account ⟨m', s⟩ = ch.account ⟨m, s⟩ := by
        simp [Channel.account, moved, Function.update_of_ne apart.symm, asks]
      rw [same]
      exact .none _
  | @other m m' s own atClient atServer =>
      have same : ch.account ⟨m', { s with own }⟩ = ch.account ⟨m, s⟩ := by
        simp only [Channel.account, atClient, atServer]
      rw [same]
      exact .none _

theorem Account.Move.clear (move : Account.Move (.clear answered) a) : a = .clear answered := by
  cases move
  rfl

/-- What is owed after a request is answered once. -/
theorem Account.Owes.move (owes : a.Owes request before) (move : Account.Move a a') :
    a'.Owes request before := by
  cases owes with
  | asked =>
      cases move with
      | none => exact .asked
      | answer answers => exact .answered answers
      | refuse => exact .settled _
  | answered answers =>
      cases move
      exact .answered answers
  | settled after =>
      cases move
      exact .settled after

/-- A letter that the client receives while something is owed is the answer, and then
nothing is owed any more, or it is no reply. -/
theorem Account.Owes.receive {u rest : List Letter} {l : List (Letter × Letter)}
    (owes : Account.Owes request before ⟨u, (letter :: rest).filter Letter.isReply, l⟩) :
    (letter.isReply = true → letter.Answers request ∧
      (⟨u, rest.filter Letter.isReply, l⟩ : Account) = .clear (before ++ [(request, letter)])) ∧
    (letter.isReply = false → Account.Owes request before ⟨u, rest.filter Letter.isReply, l⟩) := by
  constructor
  · intro reply
    rw [List.filter_cons_of_pos reply] at owes
    generalize rest.filter Letter.isReply = c at owes
    cases owes with
    | answered answers => exact ⟨answers, rfl⟩
  · intro asks
    rwa [List.filter_cons_of_neg (by simp [asks])] at owes

/-! ### The invariant -/

/-- No letter on its way to the client names another server. -/
def Channel.Guarded (ch : Channel) (scene : Scene (Server θ)) : Prop :=
  ∀ letter ∈ scene.machine.kernel.waiting ch.client, ch.Admits letter

/-- The client is at its end of the channel, with the server as its peer. -/
def Channel.Wired (ch : Channel) (rpc : Rpc η) : Prop :=
  ∃ ep, rpc.transport = .endpoint ep ∧ ep.home = ch.client ∧ ep.peer = some ch.server

/-- Nothing is owed, and this is what was answered. -/
def Channel.Clear (ch : Channel) (answered : List (Letter × Letter))
    (scene : Scene (Server θ)) : Prop :=
  ch.Guarded scene ∧ ch.account scene = .clear answered

/-- At most the answer to this request is owed. -/
def Channel.Owes (ch : Channel) (request : Letter) (before : List (Letter × Letter))
    (scene : Scene (Server θ)) : Prop :=
  ch.Guarded scene ∧ (ch.account scene).Owes request before

/-- What the client's mark says of the scene. -/
def Channel.Marked (ch : Channel) : Option MessageType → Scene (Server θ) → Prop
  | none, scene => ∃ answered, ch.Clear answered scene
  | some t, scene => ∃ request before, request.tag = t.code ∧ ch.Owes request before scene

/-- The client is wired, and its mark tells what is owed. -/
structure Faithful (ch : Channel) (rpc : Rpc η) (scene : Scene (Server θ)) : Prop where
  wired : ch.Wired rpc
  marked : ch.Marked rpc.awaiting scene

theorem Channel.Guarded.honest (guarded : ch.Guarded scene) (honest : Honest ch scene scene') :
    ch.Guarded scene' := by
  have apart := ch.apart
  intro letter mem
  cases honest with
  | take first moved =>
      rw [moved, Function.update_of_ne apart] at mem
      exact guarded letter mem
  | answer first answers moved =>
      rw [moved, Function.update_self] at mem
      rcases List.mem_append.mp mem with old | new
      · exact guarded letter old
      · obtain rfl := List.mem_singleton.mp new
        intro tagged
        have reply := answers.isReply
        unfold Letter.isReply at reply
        rw [tagged] at reply
        cases reply
  | refuse first => exact guarded letter mem
  | ask asks admitted moved =>
      rw [moved, Function.update_self] at mem
      rcases List.mem_append.mp mem with old | new
      · exact guarded letter old
      · obtain rfl := List.mem_singleton.mp new
        exact admitted
  | other own atClient atServer =>
      rw [atClient] at mem
      exact guarded letter mem

/-- A condition that single steps of the others keep is kept by all of them, and it
needs the machine for its queues alone. -/
theorem lasting_of_honest {known : Scene (Server θ) → Prop}
    (step : ∀ scene scene', known scene → Honest ch scene scene' → known scene') :
    Lasting (Honestly ch) known where
  kept scene scene' holds steps := by
    induction steps with
    | refl => exact holds
    | tail _ honest ih => exact step _ _ ih honest
  queues m m' s holds same := by
    refine step _ _ holds (Honest.other s.own ?_ ?_)
    · rw [same]
    · rw [same]

theorem lasting_clear : Lasting (Honestly ch) (ch.Clear answered : Scene (Server θ) → Prop) := by
  apply lasting_of_honest
  rintro scene scene' ⟨guarded, clear⟩ honest
  have move := honest.move
  rw [clear] at move
  exact ⟨guarded.honest honest, move.clear⟩

theorem lasting_owes :
    Lasting (Honestly ch) (ch.Owes request before : Scene (Server θ) → Prop) := by
  apply lasting_of_honest
  rintro scene scene' ⟨guarded, owes⟩ honest
  exact ⟨guarded.honest honest, owes.move honest.move⟩

theorem lasting_marked (mark : Option MessageType) :
    Lasting (Honestly ch) (ch.Marked mark : Scene (Server θ) → Prop) := by
  apply lasting_of_honest
  intro scene scene' marked honest
  have step : Honestly ch scene scene' := .single honest
  cases mark with
  | none =>
      obtain ⟨answered, clear⟩ := marked
      exact ⟨answered, lasting_clear.kept _ _ clear step⟩
  | some t =>
      obtain ⟨request, before, tagged, owes⟩ := marked
      exact ⟨request, before, tagged, lasting_owes.kept _ _ owes step⟩

/-- Nothing is owed or the answer is owed: a client without a mark is owed nothing. -/
theorem Channel.Owes.clear_or_owed (owes : ch.Owes request before scene) :
    (∃ answered, ch.Clear answered scene) ∨ ch.Owed scene := by
  obtain ⟨guarded, owes⟩ := owes
  unfold Channel.Owed
  cases account : ch.account scene with
  | mk u c l =>
      rw [account] at owes
      cases owes with
      | asked => exact .inr (.inl (List.cons_ne_nil _ _))
      | answered answers => exact .inr (.inr (List.cons_ne_nil _ _))
      | settled => exact .inl ⟨l, guarded, account⟩

theorem Faithful.marked_of_owed {rpc : Rpc η} (faithful : Faithful ch rpc scene)
    (owed : ch.Owed scene) : rpc.isOutstanding = true := by
  obtain ⟨wired, marked⟩ := faithful
  unfold isOutstanding
  cases mark : rpc.awaiting with
  | some t => rfl
  | none =>
      rw [mark] at marked
      obtain ⟨answered, guarded, clear⟩ := marked
      unfold Channel.Owed at owed
      rw [clear] at owed
      rcases owed with some | some
      · exact absurd rfl some
      · exact absurd rfl some

/-! ### What the client does to the account -/

/-- A request is owed once it is sent, unless it looks like a reply. -/
theorem Channel.Clear.send (clear : ch.Clear before ⟨m, s⟩)
    (moved : m'.kernel.waiting =
      Function.update m.kernel.waiting ch.server (m.kernel.waiting ch.server ++ [request])) :
    ch.Owes request before ⟨m', s⟩ := by
  obtain ⟨guarded, clear⟩ := clear
  constructor
  · intro letter mem
    simp only [moved, Function.update_of_ne ch.apart] at mem
    exact guarded letter mem
  · simp only [Channel.account, Account.mk.injEq] at clear
    simp only [Channel.account, moved, Function.update_self, Function.update_of_ne ch.apart,
      List.filter_append, ← List.append_assoc, clear.1, clear.2.1, clear.2.2, List.nil_append]
    cases reply : request.isReply with
    | true =>
        rw [List.filter_cons_of_neg (by simp [reply])]
        exact .settled before
    | false =>
        rw [List.filter_cons_of_pos (by simp [reply])]
        exact .asked

/-- A reply of the client is nothing that the server owes. -/
theorem Channel.Marked.send {mark : Option MessageType} (marked : ch.Marked mark ⟨m, s⟩)
    (reply : letter.isReply = true)
    (moved : m'.kernel.waiting =
      Function.update m.kernel.waiting ch.server (m.kernel.waiting ch.server ++ [letter])) :
    ch.Marked mark ⟨m', s⟩ := by
  have same : ch.account ⟨m', s⟩ = ch.account ⟨m, s⟩ := by
    simp [Channel.account, moved, Function.update_of_ne ch.apart, reply]
  have guarded : ch.Guarded ⟨m, s⟩ → ch.Guarded ⟨m', s⟩ := by
    intro guarded letter mem
    simp only [moved, Function.update_of_ne ch.apart] at mem
    exact guarded letter mem
  cases mark with
  | none =>
      obtain ⟨answered, before, clear⟩ := marked
      exact ⟨answered, guarded before, same.trans clear⟩
  | some t =>
      obtain ⟨request, before, tagged, admits, owes⟩ := marked
      refine ⟨request, before, tagged, guarded admits, ?_⟩
      rw [same]
      exact owes

/-- What holds once the client received a letter while the answer to a request was owed. -/
def Channel.Received (ch : Channel) (request : Letter) (before : List (Letter × Letter))
    (letter : Letter) (scene : Scene (Server θ)) : Prop :=
  ch.Admits letter ∧ (letter.isReply = true ∧ letter.Answers request ∧
      ch.Clear (before ++ [(request, letter)]) scene ∨
    letter.isReply = false ∧ ch.Owes request before scene)

theorem lasting_received : Lasting (Honestly ch)
    (ch.Received request before letter : Scene (Server θ) → Prop) :=
  (Lasting.const _).and (((Lasting.const _).and ((Lasting.const _).and lasting_clear)).or
    ((Lasting.const _).and lasting_owes))

theorem Channel.Guarded.receive (guarded : ch.Guarded ⟨m, s⟩)
    (waits : m.kernel.waiting ch.client = letter :: rest)
    (moved : m'.kernel.waiting = Function.update m.kernel.waiting ch.client rest) :
    ch.Admits letter ∧ ch.Guarded ⟨m', s⟩ := by
  simp only [Channel.Guarded, waits, moved, Function.update_self] at guarded ⊢
  exact ⟨guarded letter List.mem_cons_self,
    fun other mem => guarded other (List.mem_cons_of_mem _ mem)⟩

theorem account_receive
    (moved : m'.kernel.waiting = Function.update m.kernel.waiting ch.client rest) :
    ch.account ⟨m', s⟩ = { ch.account ⟨m, s⟩ with uncollected := rest.filter Letter.isReply } := by
  simp only [Channel.account, moved, Function.update_self, Function.update_of_ne ch.apart.symm]

theorem Channel.Clear.receive (clear : ch.Clear answered ⟨m, s⟩)
    (waits : m.kernel.waiting ch.client = letter :: rest)
    (moved : m'.kernel.waiting = Function.update m.kernel.waiting ch.client rest) :
    ch.Admits letter ∧ letter.isReply = false ∧ ch.Clear answered ⟨m', s⟩ := by
  obtain ⟨guarded, clear⟩ := clear
  obtain ⟨admitted, later⟩ := guarded.receive waits moved
  have none := congrArg Account.uncollected clear
  simp only [Channel.account, waits, List.filter_eq_nil_iff] at none
  have asks : letter.isReply = false := by
    rw [← Bool.not_eq_true]
    exact none letter List.mem_cons_self
  refine ⟨admitted, asks, later, ?_⟩
  rw [account_receive moved, clear, Account.mk.injEq]
  exact ⟨rfl, List.filter_eq_nil_iff.mpr fun other mem => none other (List.mem_cons_of_mem _ mem),
    rfl⟩

theorem Channel.Owes.receive (owes : ch.Owes request before ⟨m, s⟩)
    (waits : m.kernel.waiting ch.client = letter :: rest)
    (moved : m'.kernel.waiting = Function.update m.kernel.waiting ch.client rest) :
    ch.Received request before letter ⟨m', s⟩ := by
  obtain ⟨guarded, owes⟩ := owes
  obtain ⟨admitted, later⟩ := guarded.receive waits moved
  have account := account_receive (s := s) moved
  simp only [Channel.account, waits] at owes
  obtain ⟨answer, ask⟩ := owes.receive
  refine ⟨admitted, ?_⟩
  cases reply : letter.isReply with
  | true =>
      obtain ⟨answers, clear⟩ := answer reply
      exact .inl ⟨rfl, answers, later, account.trans clear⟩
  | false =>
      refine .inr ⟨rfl, later, ?_⟩
      rw [account]
      exact ask reply

end Rpc

end Conduit

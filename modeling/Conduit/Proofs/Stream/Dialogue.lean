/-
# Runs in which one party speaks

The left party sends byte strings and may close the stream; the right one receives. Each
of them performs operations, while whose waits the other one does whatever belongs to its
part, or does single steps on its own, so the two may be interleaved in any way
(`Pair.Dialogue`). Every such run keeps the invariant, and no party forgets anything
(`Pair.Dialogue.relaying`).
-/

import Conduit.Proofs.Stream.Relay
import Conduit.Proofs.Task.Waiting

namespace Conduit

namespace Stream

/-! ### Nothing is forgotten -/

/-- What was sent stays sent, what was handed out stays handed out, and a stream that was
closed stays closed. -/
structure Party.Since (p p' : Party) : Prop where
  sent : p.sent <+: p'.sent
  got : p.got <+: p'.got
  closed : p.stream.closed = true → p'.stream.closed = true

namespace Party.Since

variable {p p' p'' : Party}

theorem refl (p : Party) : p.Since p := ⟨List.prefix_refl _, List.prefix_refl _, id⟩

theorem trans (first : p.Since p') (second : p'.Since p'') : p.Since p'' where
  sent := first.sent.trans second.sent
  got := first.got.trans second.got
  closed := second.closed ∘ first.closed

end Party.Since

variable {σ α : Type}

theorem keeps_onTransport (task : Task Transport σ α) :
    Task.Keeps (fun now => now.self.closed = true) (onTransport task) := by
  intro now closed
  apply Task.ends_within
  cases task ⟨now.self.transport, now.scene, now.turns⟩ with
  | ok a inner => exact closed
  | error stop inner => exact closed

/-- A closed stream is closed after a message was taken. -/
theorem keeps_closed_pull :
    Task.Keeps (fun now => now.self.closed = true) (Stream.pull : Task Stream σ (Option Fragment)) := by
  apply Task.Keeps.bind (keeps_onTransport _)
  intro can
  split
  · exact Task.Keeps.pure _
  · apply Task.Keeps.bind (keeps_onTransport _)
    rintro (_ | message)
    · exact Task.Keeps.pure _
    · intro now closed
      change (now.self.absorb message.words).2.closed = true
      rw [closed_absorb, closed, Bool.true_or]

variable {m m' : Machine} {p p' q q' : Party} {part : Part} {read : List (List UInt64)}

/-- A single step forgets nothing. -/
theorem since_act (act : Act ⟨m, p⟩ ⟨m', p'⟩) : p.Since p' := by
  cases act with
  | begin isOpen idle short => exact ⟨List.prefix_append _ _, List.prefix_refl _, id⟩
  | hangUp isOpen idle => exact ⟨List.prefix_refl _, List.prefix_refl _, fun _ => rfl⟩
  | transmit next offered => exact ⟨List.prefix_refl _, List.prefix_refl _, id⟩
  | pull pulled =>
      refine ⟨List.prefix_refl _, List.prefix_refl _, fun closed => ?_⟩
      have ends := keeps_closed_pull ⟨p.stream, ⟨m, ()⟩, []⟩ closed
      rw [pulled] at ends
      exact ends
  | handOut limit =>
      obtain ⟨-, -, closed⟩ := drainWithin_keeps (limit + 1) limit p.stream
      exact ⟨List.prefix_refl _, List.prefix_append _ _, closed.trans⟩

/-! ### What a party does on its own -/

/-- The invariant, seen from a party that takes this part. While the speaker acts, nothing
is read; while the listener acts, nothing is unread. -/
def Related : Part → List (List UInt64) → Machine → Party → Party → Prop
  | .speaker, read, m, p, q => Relaying m p q read
  | .listener, read, m, p, q => ∃ read', read <+: read' ∧ Relaying m q p read'

namespace Related

theorem conserving (related : Related part read m p q) : Conserving m p q := by
  cases part with
  | speaker =>
      have relaying : Relaying m p q read := related
      exact relaying.conserving
  | listener =>
      obtain ⟨read', -, relaying⟩ := related
      exact relaying.conserving.symm

theorem other (related : Related part read m p q) : ∃ read', Related part.other read' m q p := by
  cases part with
  | speaker => exact ⟨read, read, List.prefix_refl _, related⟩
  | listener =>
      obtain ⟨read', -, relaying⟩ := related
      exact ⟨read', relaying⟩

/-- A single step of its part keeps the invariant. -/
theorem step (related : Related part read m p q) (step : part.Steps ⟨m, p⟩ ⟨m', p'⟩) :
    Related part read m' p' q := by
  cases part with
  | speaker =>
      have relaying : Relaying m p q read := related
      exact relaying.speaks step
  | listener =>
      obtain ⟨read', before, relaying⟩ := related
      obtain ⟨read'', further, relaying'⟩ := relaying.listens step
      exact ⟨read'', before.trans further, relaying'⟩

end Related

/-- What a party that takes this part does on its own: a single step, or an operation that
the other party lets it wait in as often as it likes. -/
inductive Does (part : Part) : Scene Party → Scene Party → Prop
  | step {scene scene' : Scene Party} (step : part.Steps scene scene') : Does part scene scene'
  | perform {m m' : Machine} {p p' : Party} {op : Op} {waits : Nat} {turns : List (Turn Unit)}
      (plays : op.part = part) (short : op.Short) (idle : p.rest = [])
      (ended : outcome? (Party.perform op ⟨p, ⟨m, ()⟩, List.replicate waits nothing⟩) =
        some ⟨p', ⟨m', ()⟩, turns⟩) : Does part ⟨m, p⟩ ⟨m', p'⟩

/-- A turn in which a party does whatever belongs to its part. -/
def Doing (part : Part) (turn : Turn Party) : Prop :=
  Turn.Follows (Relation.ReflTransGen (Does part)) turn

/-- A party that performs an operation of its part, if it is in none and the operation comes
to an end without waiting, does what belongs to its part. -/
theorem takes_acting (op : Op) (plays : op.part = part) (short : op.Short) :
    Turn.Takes (Relation.ReflTransGen (Does part)) (acting op) := by
  rintro ⟨m, p⟩
  unfold acting
  by_cases idle : p.rest.isEmpty = true
  · simp only [if_pos idle]
    cases ended : outcome? (Party.perform op ⟨p, ⟨m, ()⟩, []⟩) with
    | none => exact ⟨_, rfl, .refl⟩
    | some now =>
        have ended : outcome? (Party.perform op ⟨p, ⟨m, ()⟩, List.replicate 0 nothing⟩) =
          some ⟨now.self, ⟨now.scene.machine, ()⟩, now.turns⟩ := ended
        exact ⟨_, rfl, .single (.perform plays short (List.isEmpty_iff.mp idle) ended)⟩
  · simp only [if_neg idle]
    exact ⟨_, rfl, .refl⟩

/-- What a party does on its own keeps the invariant and forgets nothing. -/
theorem does_related (related : Related part read m p q) (does : Does part ⟨m, p⟩ ⟨m', p'⟩) :
    Related part read m' p' q ∧ p.Since p' := by
  cases does with
  | step step => exact ⟨related.step step, since_act step.act⟩
  | @perform _ _ _ _ op waits turns plays short idle ended =>
      have upheld : Upheld part.Steps (fun scene scene' : Scene Unit => scene = scene')
          fun p scene => Related part read scene.machine p q :=
        { conserving := fun related => ⟨q, related.conserving⟩
          step := fun related step => related.step step
          stable := fun related same => same ▸ related }
      have idly : ∀ turn ∈ List.replicate waits nothing,
          Turn.Follows (fun scene scene' : Scene Unit => scene = scene') turn := by
        intro turn mem scene
        rw [List.eq_of_mem_replicate mem]
        rfl
      have remembers := upheld.along p.Since fun since step =>
        since.trans (since_act step.act)
      exact remembers.ended plays short idle ⟨⟨related, .refl p⟩, idly⟩ ended

/-- Whatever a party does on its own, step by step, keeps the invariant and forgets
nothing. -/
theorem doing_related {scene scene' : Scene Party}
    (related : Related part read scene.machine scene.others q)
    (does : Relation.ReflTransGen (Does part) scene scene') :
    Related part read scene'.machine scene'.others q ∧ scene.others.Since scene'.others := by
  induction does with
  | refl => exact ⟨related, .refl _⟩
  | tail _ does ih =>
      obtain ⟨related', since⟩ := ih
      obtain ⟨related'', since'⟩ := does_related related' does
      exact ⟨related'', since.trans since'⟩

/-! ### Runs -/

/-- The invariant holds, and neither party forgot anything since a given moment. -/
def Attended (part : Part) (p₀ q₀ p : Party) (scene : Scene Party) : Prop :=
  ((∃ read, Related part read scene.machine p scene.others) ∧ q₀.Since scene.others) ∧ p₀.Since p

theorem upheld_attended (part : Part) (p₀ q₀ : Party) :
    Upheld part.Steps (Relation.ReflTransGen (Does part.other)) (Attended part p₀ q₀) := by
  refine Upheld.along ⟨?_, ?_, ?_⟩ p₀.Since fun since step =>
    since.trans (since_act step.act)
  · rintro p scene ⟨⟨read, related⟩, -⟩
    exact ⟨_, related.conserving⟩
  · rintro p p' m m' others ⟨⟨read, related⟩, since⟩ step
    exact ⟨⟨read, related.step step⟩, since⟩
  · rintro p scene scene' ⟨⟨read, related⟩, since⟩ does
    obtain ⟨read', back⟩ := related.other
    obtain ⟨back', since'⟩ := doing_related back does
    refine ⟨?_, since.trans since'⟩
    have again := back'.other
    cases part with
    | speaker => exact again
    | listener => exact again

namespace Pair

/-- The left party takes this part: it does something on its own, or performs an operation
while whose waits the right party takes the other part. -/
inductive Plays (part : Part) : Pair → Pair → Prop
  | alone {m m' : Machine} {p p' q : Party} (does : Does part ⟨m, p⟩ ⟨m', p'⟩) :
      Plays part ⟨m, p, q⟩ ⟨m', p', q⟩
  | perform {m m' : Machine} {p p' q q' : Party} {op : Op} {turns turns' : List (Turn Party)}
      (plays : op.part = part) (short : op.Short) (idle : p.rest = [])
      (lawful : ∀ turn ∈ turns, Doing part.other turn)
      (ended : outcome? (Party.perform op ⟨p, ⟨m, q⟩, turns⟩) = some ⟨p', ⟨m', q'⟩, turns'⟩) :
      Plays part ⟨m, p, q⟩ ⟨m', p', q'⟩

/-- The left party sends and may close the stream, the right one receives, in any order. -/
def Dialogue : Pair → Pair → Prop :=
  Relation.ReflTransGen fun pair pair' =>
    Plays .speaker pair pair' ∨ Plays .listener pair.swap pair'.swap

variable {pair pair' start : Pair}

/-- A step keeps the invariant, and neither party forgets anything. -/
theorem Plays.related (plays : Plays part pair pair')
    (related : Related part read pair.machine pair.left pair.right) :
    (∃ read', Related part read' pair'.machine pair'.left pair'.right) ∧
      pair.left.Since pair'.left ∧ pair.right.Since pair'.right := by
  cases plays with
  | alone does =>
      obtain ⟨related', since⟩ := does_related related does
      exact ⟨⟨read, related'⟩, since, .refl _⟩
  | @perform m m' p p' q q' op turns turns' plays short idle lawful ended =>
      have among : Task.Among _ (Attended part p q) ⟨p, ⟨m, q⟩, turns⟩ :=
        ⟨⟨⟨⟨read, related⟩, .refl q⟩, .refl p⟩, lawful⟩
      obtain ⟨⟨related', sinceQ⟩, sinceP⟩ :=
        (upheld_attended part p q).ended plays short idle among ended
      exact ⟨related', sinceP, sinceQ⟩

/-- A run keeps the invariant, and neither party forgets anything. -/
theorem Dialogue.relaying (run : Dialogue pair pair') {read : List (List UInt64)}
    (relaying : Relaying pair.machine pair.left pair.right read) :
    (∃ read', Relaying pair'.machine pair'.left pair'.right read') ∧
      pair.left.Since pair'.left ∧ pair.right.Since pair'.right := by
  induction run with
  | refl => exact ⟨⟨read, relaying⟩, .refl _, .refl _⟩
  | tail _ step ih =>
      obtain ⟨⟨read', relaying'⟩, sinceL, sinceR⟩ := ih
      rcases step with left | right
      · have speaker : Related .speaker read' _ _ _ := relaying'
        obtain ⟨⟨read'', related⟩, sinceL', sinceR'⟩ := Plays.related left speaker
        exact ⟨⟨read'', related⟩, sinceL.trans sinceL', sinceR.trans sinceR'⟩
      · have listener : Related .listener read' _ _ _ := ⟨read', List.prefix_refl _, relaying'⟩
        obtain ⟨⟨_, read'', -, related⟩, sinceR', sinceL'⟩ := Plays.related right listener
        exact ⟨⟨read'', related⟩, sinceL.trans sinceL', sinceR.trans sinceR'⟩

/-- On a new stream nothing was said. -/
theorem relaying_new (new : New pair) : Relaying pair.machine pair.left pair.right [] := by
  have conserving := conserving_new new
  obtain ⟨a, b, lengthA, lengthB, l, r, linked, left, right, isLeft, isRight⟩ := new.linked
  obtain ⟨transportA, -, -, -, openA⟩ := create_ok left
  obtain ⟨transportB, -, emptyB, leftB, openB⟩ := create_ok right
  unfold Pair.Conserving at conserving
  rw [isLeft, isRight] at conserving ⊢
  have waiting : r.transport.waiting pair.machine = [] := by
    rw [transportB]
    exact linked.waiting_eq
  refine ⟨conserving, fun _ mem => absurd mem List.not_mem_nil, ?_, ?_, ?_, ?_, ?_⟩
  · change (r.transport.waiting pair.machine).length ≤ _
    rw [waiting]
    exact Nat.zero_le _
  · change [] ++ (r.transport.waiting pair.machine ++ []) = transcript _ [] l.closed
    rw [waiting, openA]
    rfl
  · change _ = ([] ++ r.backlog, r.bytesLeft)
    rw [emptyB, leftB]
    rfl
  · exact openB.symm
  · exact List.nil_prefix

end Pair

end Stream

end Conduit

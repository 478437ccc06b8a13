/-
# Message reads respect the bounds of byte strings

A listener that reads message by message obtains the byte strings that were sent, one by one
and each as a whole. A string that is too long for the buffer stays where it is, in the ring,
parked or on its way, for byte reads to take it. `messages_respected` is the result for every
list of byte strings, whatever the speaker does meanwhile.
-/

import Conduit.Proofs.Stream.Whole

namespace Conduit

namespace Stream

/-! ### Reading message by message -/

namespace Pair

variable {start pair : Pair} {obtained : List (List UInt8)} {pending : Bool}

/-- The moment at which the listener begins to read into a new buffer. -/
def reading (pair : Pair) (turns : List (Turn Party)) : Moment Reader Party :=
  ⟨{ stream := pair.right.stream }, ⟨pair.machine, pair.left⟩, turns⟩

/-- The two parties after the listener has read into a buffer. -/
def after (pair : Pair) (now : Moment Reader Party) : Pair :=
  ⟨now.scene.machine, now.scene.others, pair.right.into now.self⟩

/-- The listener reads message by message, and a message that was too long for its buffer
(`pending`) by a read of just its length. The speaker acts between and during these
reads. -/
inductive Obtains (start : Pair) : List (List UInt8) → Bool → Pair → Prop
  | start : Obtains start [] false start
  | speaks {m m' : Machine} {p p' q : Party} {obtained : List (List UInt8)} {pending : Bool}
      (obtains : Obtains start obtained pending ⟨m, p, q⟩)
      (does : Does .speaker ⟨m, p⟩ ⟨m', p'⟩) : Obtains start obtained pending ⟨m', p', q⟩
  | message {pair : Pair} {obtained : List (List UInt8)} {length total : Nat}
      {turns : List (Turn Party)} {now : Moment Reader Party}
      (obtains : Obtains start obtained false pair) (talking : ∀ turn ∈ turns, Talking turn)
      (ran : Reader.receiveMessage length (pair.reading turns) = .ok total now) :
      Obtains start (obtained ++ [now.self.filled]) false (pair.after now)
  | overflow {pair : Pair} {obtained : List (List UInt8)} {length : Nat}
      {turns : List (Turn Party)} {now : Moment Reader Party}
      (obtains : Obtains start obtained false pair) (talking : ∀ turn ∈ turns, Talking turn)
      (ran : Reader.receiveMessage length (pair.reading turns) = .error (.failed .overflow) now) :
      Obtains start obtained true (pair.after now)
  | rest {pair : Pair} {obtained : List (List UInt8)} {message : List UInt8}
      {turns : List (Turn Party)} {now : Moment Reader Party}
      (obtains : Obtains start obtained true pair) (talking : ∀ turn ∈ turns, Talking turn)
      (next : pair.left.sent[obtained.length]? = some message)
      (ran : Reader.receiveAll message.length (pair.reading turns) = .ok () now) :
      Obtains start (obtained ++ [now.self.filled]) false (pair.after now)
  | closed {pair : Pair} {obtained : List (List UInt8)} {length : Nat}
      {turns : List (Turn Party)} {now : Moment Reader Party}
      (obtains : Obtains start obtained false pair) (talking : ∀ turn ∈ turns, Talking turn)
      (ran : Reader.receiveMessage length (pair.reading turns) = .error (.failed .closed) now) :
      Obtains start obtained false (pair.after now)

/-- The next byte string has begun, and the listener has yet to read its bytes. -/
def Pending (pair : Pair) (count : Nat) : Prop :=
  ∃ message, pair.left.sent[count]? = some message ∧
    Hearing pair.right message.length (some (count + 1)) pair.left
      { stream := pair.right.stream } ⟨pair.machine, pair.left⟩

/-- The listener has handed out the byte strings that it obtained, which are the first ones
that were sent, and stands behind them, or within the next one. -/
structure Stands (obtained : List (List UInt8)) (pending : Bool) (pair : Pair) : Prop where
  first : pair.left.sent.take obtained.length = obtained
  got : pair.right.got = obtained.flatten
  within : pending = true → pair.Pending obtained.length
  between : pending = false → Idle pair.right obtained.length pair.left
    { stream := pair.right.stream } ⟨pair.machine, pair.left⟩

namespace Stands

theorem begun (stands : Stands obtained pending pair) :
    obtained.length ≤ pair.left.sent.length := by
  have count := congrArg List.length stands.first
  rw [List.length_take] at count
  omega

theorem got_eq (stands : Stands obtained pending pair) :
    pair.right.got = (pair.left.sent.take obtained.length).flatten := by
  rw [stands.first]
  exact stands.got

theorem relaying (stands : Stands obtained pending pair) :
    ∃ read, Relaying pair.machine pair.left pair.right read := by
  cases pending with
  | true =>
      obtain ⟨message, -, ⟨read, reading⟩, -⟩ := stands.within rfl
      have relaying := reading.relaying
      rw [Party.into_new] at relaying
      exact ⟨read, relaying⟩
  | false =>
      obtain ⟨read, relaying, -⟩ := (stands.between rfl).relaying
      rw [Party.into_new] at relaying
      exact ⟨read, relaying⟩

/-- Once the next byte string is handed out, the listener stands behind it. -/
theorem next (stands : Stands obtained pending pair) {now : Moment Reader Party}
    (next : now.scene.others.sent[obtained.length]? = some now.self.filled)
    (idle : Idle (pair.right.into now.self) (obtained.length + 1) pair.left
      { stream := now.self.stream } now.scene) :
    Stands (obtained ++ [now.self.filled]) false (pair.after now) where
  first := by
    change now.scene.others.sent.take (obtained ++ [now.self.filled]).length = _
    rw [List.length_append, List.length_singleton, List.take_add_one,
      idle.since.take_eq stands.begun, stands.first, next]
    rfl
  got := by
    change pair.right.got ++ now.self.filled = _
    rw [stands.got, List.flatten_append, List.flatten_singleton]
  within impossible := nomatch impossible
  between _ := by
    rw [List.length_append, List.length_singleton]
    exact { idle with since := .refl _ }

theorem speaks {m m' : Machine} {p p' q : Party} (stands : Stands obtained pending ⟨m, p, q⟩)
    (does : Does .speaker ⟨m, p⟩ ⟨m', p'⟩) : Stands obtained pending ⟨m', p', q⟩ := by
  have follows := Relation.ReflTransGen.single does
  obtain ⟨read, relaying⟩ := stands.relaying
  have related : Related .speaker read m p q := relaying
  have since := (does_related related does).2
  refine ⟨(since.take_eq stands.begun).trans stands.first, stands.got, fun isPending => ?_,
    fun isIdle => ?_⟩
  · obtain ⟨message, next, hearing⟩ := stands.within isPending
    exact ⟨message, since.getElem?_eq next, (hearing.does follows).1, .refl _⟩
  · exact { (stands.between isIdle).does follows with since := .refl _ }

end Stands

/-- Every read leaves the listener behind a byte string, or within the one that was too
long. -/
theorem stands_of_obtains (new : New start) (obtains : start.Obtains obtained pending pair) :
    Stands obtained pending pair := by
  induction obtains with
  | start =>
      have relaying := relaying_new new
      obtain ⟨nothing, between⟩ := Prod.mk.inj relaying.held
      obtain ⟨got, empty⟩ := List.append_eq_nil_iff.mp nothing.symm
      refine ⟨rfl, got, (fun impossible => nomatch impossible), fun _ => ⟨⟨[], ?_, rfl⟩, rfl,
        between.symm, empty, .refl _⟩⟩
      rw [Party.into_new]
      exact relaying
  | speaks _ does ih => exact ih.speaks does
  | @message pair obtained length total turns now _ talking ran ih =>
      have amid : Task.Amid _ _ (pair.reading turns) := ⟨ih.between rfl, talking⟩
      have ends := ends_receiveMessage length ih.begun ih.got_eq amid
      rw [ran] at ends
      obtain ⟨-, -, next, idle⟩ := ends
      exact ih.next next idle
  | @overflow pair obtained length turns now _ talking ran ih =>
      have amid : Task.Amid _ _ (pair.reading turns) := ⟨ih.between rfl, talking⟩
      have ends := ends_receiveMessage length ih.begun ih.got_eq amid
      rw [ran] at ends
      obtain ⟨new, ⟨-, message, next, -, hearing⟩ | ⟨impossible, -⟩⟩ := ends
      · refine ⟨(hearing.2.take_eq ih.begun).trans ih.first, ?_, fun _ => ⟨message, next, ?_⟩,
          fun impossible => nomatch impossible⟩
        · change pair.right.got ++ now.self.filled = _
          rw [new, List.append_nil, ih.got]
        · exact ⟨(hearing.renew new).1, .refl _⟩
      · cases impossible
  | @rest pair obtained message turns now _ talking next ran ih =>
      obtain ⟨same, next', hearing⟩ := ih.within rfl
      obtain rfl := Option.some.inj (next.symm.trans next')
      have amid : Task.Amid _ _ (pair.reading turns) := ⟨hearing, talking⟩
      have ends := ends_receiveAll_begun next ih.got_eq amid
      rw [ran] at ends
      obtain ⟨rfl, next'', idle⟩ := ends
      exact ih.next next'' idle
  | @closed pair obtained length turns now _ talking ran ih =>
      have amid : Task.Amid _ _ (pair.reading turns) := ⟨ih.between rfl, talking⟩
      have ends := ends_receiveMessage length ih.begun ih.got_eq amid
      rw [ran] at ends
      obtain ⟨new, ⟨impossible, -⟩ | ⟨-, -, idle⟩⟩ := ends
      · cases impossible
      · refine ⟨(idle.since.take_eq ih.begun).trans ih.first, ?_,
          (fun impossible => nomatch impossible), fun _ => { idle.renew with since := .refl _ }⟩
        change pair.right.got ++ now.self.filled = _
        rw [new, List.append_nil, ih.got]

/-- A message read gives the next byte string and leaves the rest of the buffer as it was; or
the string is too long, or there is none any more, and the whole buffer is as it was; or the
string is not wholly on its way when no turn is left. -/
def ReceivesMessage (pair : Pair) (count length : Nat) (turns : List (Turn Party)) : Prop :=
  match Reader.receiveMessage length (pair.reading turns) with
  | .ok total now =>
      ∃ message, now.scene.others.sent[count]? = some message ∧ total = message.length ∧
        message.length ≤ length ∧
        (∀ before, now.self.buffer length before =
          message ++ List.replicate (length - message.length) before) ∧
        now.self.stream.bytesLeft = 0 ∧ now.self.stream.buffered = 0
  | .error (.failed e) now =>
      (∀ before, now.self.buffer length before = List.replicate length before) ∧
        (e = .overflow ∧ (∃ message, now.scene.others.sent[count]? = some message ∧
            length < message.length) ∨
          e = .closed ∧ now.scene.others.stream.closed = true ∧
            now.scene.others.sent.length = count)
  | .error (.halted h) now =>
      h = .stalled ∧ now.turns = [] ∧ now.scene.others.transmitted ≤ count ∧
        ¬ (now.scene.others.stream.closed = true ∧ now.scene.others.rest = [])

/-- A read of just this byte string gives it and leaves nothing behind, unless the string is
not wholly on its way when no turn is left. -/
def ReadsWhole (pair : Pair) (count : Nat) (message : List UInt8) (turns : List (Turn Party)) :
    Prop :=
  match Reader.receiveAll message.length (pair.reading turns) with
  | .ok () now =>
      now.self.filled = message ∧ now.self.stream.bytesLeft = 0 ∧ now.self.stream.buffered = 0
  | .error (.failed _) _ => False
  | .error (.halted h) now =>
      h = .stalled ∧ now.turns = [] ∧ now.scene.others.transmitted ≤ count

/-- Whatever byte reads follow, the byte string is what they give first. -/
def GivesFirst (pair : Pair) (message : List UInt8) : Prop :=
  ∀ later, pair.Dialogue later → ∃ bytes, later.right.got = pair.right.got ++ bytes ∧
    (bytes <+: message ∨ message <+: bytes)

theorem Stands.receivesMessage (stands : Stands obtained false pair) (length : Nat)
    {turns : List (Turn Party)} (talking : ∀ turn ∈ turns, Talking turn) :
    pair.ReceivesMessage obtained.length length turns := by
  have amid : Task.Amid _ _ (pair.reading turns) := ⟨stands.between rfl, talking⟩
  have ends := ends_receiveMessage length stands.begun stands.got_eq amid
  unfold ReceivesMessage
  cases ran : Reader.receiveMessage length (pair.reading turns) with
  | ok total now =>
      rw [ran] at ends
      obtain ⟨total, fits, next, idle⟩ := ends
      exact ⟨now.self.filled, next, total, total ▸ fits, fun before => rfl, idle.between,
        idle.buffered_eq⟩
  | error stop now =>
      rw [ran] at ends
      cases stop with
      | failed e =>
          obtain ⟨new, reason⟩ := ends
          refine ⟨fun before => ?_, ?_⟩
          · rw [Reader.buffer, new]
            rfl
          · rcases reason with ⟨rfl, message, next, long, -⟩ | ⟨rfl, shut, idle⟩
            · exact .inl ⟨rfl, message, next, long⟩
            · obtain ⟨read, relaying, started⟩ := idle.relaying
              obtain ⟨closed, -, -, -, -, all⟩ := relaying.complete shut
              exact .inr ⟨rfl, closed, all.symm.trans started⟩
      | halted h => exact ends

theorem Stands.readsWhole (stands : Stands obtained true pair) {message : List UInt8}
    (next : pair.left.sent[obtained.length]? = some message)
    {turns : List (Turn Party)} (talking : ∀ turn ∈ turns, Talking turn) :
    pair.ReadsWhole obtained.length message turns := by
  obtain ⟨same, next', hearing⟩ := stands.within rfl
  obtain rfl := Option.some.inj (next.symm.trans next')
  have amid : Task.Amid _ _ (pair.reading turns) := ⟨hearing, talking⟩
  have ends := ends_receiveAll_begun next stands.got_eq amid
  unfold ReadsWhole
  cases ran : Reader.receiveAll message.length (pair.reading turns) with
  | ok _ now =>
      rw [ran] at ends
      obtain ⟨filled, -, idle⟩ := ends
      exact ⟨filled, idle.between, idle.buffered_eq⟩
  | error stop now =>
      rw [ran] at ends
      obtain ⟨rfl, last, most, -⟩ := ends
      exact ⟨rfl, last, most⟩

theorem Stands.givesFirst (stands : Stands obtained pending pair) {message : List UInt8}
    (next : pair.left.sent[obtained.length]? = some message) : pair.GivesFirst message := by
  intro later run
  obtain ⟨read, relaying⟩ := stands.relaying
  obtain ⟨⟨read', relaying'⟩, since, sinceR⟩ := run.relaying relaying
  obtain ⟨bytes, handed⟩ := sinceR.got
  refine ⟨bytes, handed.symm, ?_⟩
  have parts : later.left.sent.take (obtained.length + 1) = obtained ++ [message] := by
    rw [List.take_add_one, since.getElem?_eq next, since.take_eq stands.begun, stands.first]
    rfl
  have first : later.left.sent.flatten = pair.right.got ++
      (message ++ (later.left.sent.drop (obtained.length + 1)).flatten) := by
    conv_lhs => rw [← List.take_append_drop (obtained.length + 1) later.left.sent, parts]
    simp only [List.flatten_append, List.flatten_singleton, List.append_assoc, stands.got]
  have given := (List.prefix_append _ _).trans relaying'.delivered
  rw [← handed, first] at given
  have front := (List.prefix_append_right_inj _).mp given
  exact List.prefix_or_prefix_of_prefix front (List.prefix_append _ _)

/-- On a new stream, over a capability channel or over shared memory and with rings of any
length, let one party send byte strings, and the other one read message by message, and those
that are too long for its buffer by their length. The strings that it obtains are those that
were sent, in order. Each message read gives the next one whole, or leaves it to byte reads,
and where one is made in the middle of a string it is refused and changes nothing. -/
theorem messages_respected {start pair : Pair} {obtained : List (List UInt8)} {pending : Bool}
    (new : New start) (obtains : start.Obtains obtained pending pair) :
    obtained = pair.left.sent.take obtained.length ∧
      (pending = false → pair.right.stream.bytesLeft = 0 ∧ pair.right.stream.buffered = 0 ∧
        ∀ length turns, (∀ turn ∈ turns, Talking turn) →
          pair.ReceivesMessage obtained.length length turns) ∧
      (pending = true → ∃ message, pair.left.sent[obtained.length]? = some message ∧
        pair.right.stream.buffered + pair.right.stream.bytesLeft.toNat = message.length ∧
        pair.GivesFirst message ∧ ∀ turns, (∀ turn ∈ turns, Talking turn) →
          pair.ReadsWhole obtained.length message turns) ∧
      ∀ (σ : Type) (r : Reader) (scene : Scene σ) (turns : List (Turn σ)) (length : Nat),
        r.stream.bytesLeft ≠ 0 ∨ r.stream.buffered ≠ 0 →
          Reader.receiveMessage length ⟨r, scene, turns⟩ =
            .error (.failed .invalidSize) ⟨r, scene, turns⟩ := by
  have stands := stands_of_obtains new obtains
  refine ⟨stands.first.symm, ?_, ?_, ?_⟩
  · rintro rfl
    have idle := stands.between rfl
    exact ⟨idle.between, idle.buffered_eq, fun length turns talking =>
      stands.receivesMessage length talking⟩
  · rintro rfl
    obtain ⟨message, next, ⟨read, reading⟩, -⟩ := stands.within rfl
    obtain ⟨expected, -⟩ := reading.meant _ rfl
    refine ⟨message, next, ?_, stands.givesFirst next, fun turns talking =>
      stands.readsWhole next talking⟩
    rw [← expected, Reader.expected, length_backlog]
    exact (Nat.zero_add _).symm ▸ rfl
  · intro σ r scene turns length within
    unfold Reader.receiveMessage
    rw [Task.self_bind, if_pos within]
    rfl

/-- An empty byte string is obtained by a message read. The next one is too long for the
buffer, and longer than the ring; it is obtained by a read of its length. -/
theorem messages_respected_narrow :
    ∃ final : Pair, New narrow ∧ narrow.Obtains [[], List.replicate 20 7] false final ∧
      final.left.sent.take 2 = [[], List.replicate 20 7] ∧
      final.right.stream.bytesLeft = 0 ∧ final.right.stream.buffered = 0 := by
  have talking : ∀ data : List UInt8, data.length < Ring.lengthLimit →
      ∀ turn ∈ [acting (.send data)], Talking turn := fun data short turn mem =>
    List.mem_singleton.mp mem ▸ takes_acting (.send data) rfl short
  have ran : ((Task.success? (Reader.receiveMessage 10 (narrow.reading [acting (.send [])]))).bind
      fun first => (Task.failure? (Reader.receiveMessage 10 ((narrow.after first.2).reading
        [acting (.send (List.replicate 20 7))]))).bind
      fun second => (Task.success? (Reader.receiveAll 20
        (((narrow.after first.2).after second.2).reading []))).map
      fun third => (first.2.self.filled, second.1,
        ((narrow.after first.2).after second.2).left.sent[1]?, third.2.self.filled)) =
      some ([], .overflow, some (List.replicate 20 7), List.replicate 20 7) := by decide +kernel
  obtain ⟨⟨total, first⟩, empty, ran⟩ := Option.bind_eq_some_iff.mp ran
  obtain ⟨⟨e, second⟩, long, ran⟩ := Option.bind_eq_some_iff.mp ran
  obtain ⟨⟨_, third⟩, rest, same⟩ := Option.map_eq_some_iff.mp ran
  obtain ⟨none, same⟩ := Prod.mk.inj same
  obtain ⟨rfl, same⟩ := Prod.mk.inj same
  obtain ⟨next, filled⟩ := Prod.mk.inj same
  have one := Obtains.start.message (talking [] (by decide)) (Task.success?_eq_some empty)
  have two := one.overflow (talking (List.replicate 20 7) (by decide)) (Task.failure?_eq_some long)
  have three := two.rest (fun _ mem => absurd mem List.not_mem_nil) next (Task.success?_eq_some rest)
  rw [none, filled] at three
  obtain ⟨sent, idle, -⟩ := messages_respected new_narrow three
  obtain ⟨between, buffered, -⟩ := idle rfl
  exact ⟨_, new_narrow, three, sent.symm, between, buffered⟩

end Pair

end Stream

end Conduit

/-
# Reading one whole byte string

Before a message read the listener stands between two byte strings (`Idle`): it has handed
out the strings that it obtained, and holds nothing. `receiveMessage` then waits for the
first message of the next string (`ends_awaitStart`), which tells its length; a buffer that
is meant for just that length is full before anything behind the string is taken.
-/

import Conduit.Proofs.Stream.Closing

namespace Conduit

namespace Stream

variable {p q : Party} {count : Nat}

/-! ### Waiting for the next byte string -/

/-- So many byte strings have begun, all of them were handed out, and the buffer is new. -/
structure Idle (q : Party) (count : Nat) (p : Party) (r : Reader) (scene : Scene Party) :
    Prop where
  relaying : ∃ read, Relaying scene.machine scene.others (q.into r) read ∧ starts 0 read = count
  new : r.filled = []
  between : r.stream.bytesLeft = 0
  empty : r.stream.backlog = []
  since : p.Since scene.others

theorem Idle.does {r : Reader} {scene scene' : Scene Party} (idle : Idle q count p r scene)
    (does : Relation.ReflTransGen (Does .speaker) scene scene') : Idle q count p r scene' := by
  obtain ⟨read, relaying, started⟩ := idle.relaying
  have related : Related .speaker read scene.machine scene.others (q.into r) := relaying
  obtain ⟨related', since⟩ := doing_related related does
  exact { idle with relaying := ⟨read, related', started⟩, since := idle.since.trans since }

theorem Idle.buffered_eq {r : Reader} {scene : Scene Party} (idle : Idle q count p r scene) :
    r.stream.buffered = 0 := by
  rw [← length_backlog, idle.empty]
  rfl

/-- The message that is pulled between two byte strings has the mark of the end. -/
theorem Idle.ends {r : Reader} {m m' : Machine} {others : Party} {t : Transport}
    {words : List UInt64} {read : List (List UInt64)} (idle : Idle q count p r ⟨m, others⟩)
    (relaying : Relaying m others (q.into r) read) (started : starts 0 read = count)
    (mark : words.headD 0 = closeMark)
    (relaying' : Relaying m' others { q.into r with
      stream := { r.stream with transport := t, closed := true } } (read ++ [words])) :
    Idle q count p { r with stream := { r.stream with transport := t, closed := true } }
      ⟨m', others⟩ := by
  have between : (decode 0 read).2 = 0 := (congrArg Prod.snd relaying.held).trans idle.between
  refine ⟨⟨_, relaying', ?_⟩, idle.new, idle.between, idle.empty, idle.since⟩
  rw [starts_concat between, started, bne, beq_iff_eq.mpr mark]
  rfl

/-- The message that is pulled between two byte strings is the first one of the next. -/
theorem Idle.begins {r : Reader} {m m' : Machine} {others : Party} {s : Stream}
    {words : List UInt64} {read : List (List UInt64)} {message : List UInt8}
    (idle : Idle q count p r ⟨m, others⟩) (relaying : Relaying m others (q.into r) read)
    (started : starts 0 read = count) (mark : words.headD 0 ≠ closeMark)
    (total : (words.headD 0).toNat = message.length) (valid : s.ring.Valid) (empty : s.backlog = [])
    (relaying' : Relaying m' others { q.into r with
      stream := { s with bytesLeft := words.headD 0 }.take words.tail } (read ++ [words])) :
    Reading q message.length (some (count + 1)) others m'
      { r with stream := { s with bytesLeft := words.headD 0 }.take words.tail }
      (read ++ [words]) := by
  have between : (decode 0 read).2 = 0 := (congrArg Prod.snd relaying.held).trans idle.between
  refine ⟨relaying', ?_, fun begun mem => ?_⟩
  · rw [idle.new]
    exact Nat.zero_le _
  · obtain rfl : count + 1 = begun := Option.some.inj mem
    have portion := length_portion (words.headD 0) words.tail
    rw [total] at portion
    constructor
    · -- Nothing was left of the strings before, so all that is expected belongs to this one.
      unfold Reader.expected
      rw [backlog_take (s := { s with bytesLeft := words.headD 0 }) valid, bytesLeft_take, idle.new]
      change 0 + (s.backlog ++ _).length + _ = _
      rw [empty, List.nil_append, Nat.zero_add]
      exact portion
    · rw [starts_concat between, started, bne, beq_eq_false_iff_ne.mpr mark]
      rfl

/-- The message that is pulled between two byte strings starts the next one, or announces
the end. -/
theorem Idle.pull {r : Reader} {m : Machine} {others : Party} (idle : Idle q count p r ⟨m, others⟩)
    (isOpen : r.stream.closed = false) :
    (r.stream.transport.waiting m = [] ∧ ∀ (σ : Type) (others : σ) (turns : List (Turn σ)),
      Reader.onStream Stream.pull ⟨r, ⟨m, others⟩, turns⟩ = .ok none ⟨r, ⟨m, others⟩, turns⟩) ∨
    (∃ r' m', Idle q count p r' ⟨m', others⟩ ∧ r'.stream.closed = true ∧
      ∀ (σ : Type) (others : σ) (turns : List (Turn σ)),
        Reader.onStream Stream.pull ⟨r, ⟨m, others⟩, turns⟩ =
          .ok (some .close) ⟨r', ⟨m', others⟩, turns⟩) ∨
    ∃ r' m' read' message total, Reading q message.length (some (count + 1)) others m' r' read' ∧
      r'.filled = [] ∧ others.sent[count]? = some message ∧ total.toNat = message.length ∧
      ∀ (σ : Type) (others : σ) (turns : List (Turn σ)),
        Reader.onStream Stream.pull ⟨r, ⟨m, others⟩, turns⟩ =
          .ok (some (.start total)) ⟨r', ⟨m', others⟩, turns⟩ := by
  obtain ⟨read, relaying, started⟩ := idle.relaying
  rcases relaying.pull with ⟨nothing, pulled⟩ | ⟨words, t, m', relaying', waiting, pulled⟩
  · exact .inl ⟨nothing, fun σ others turns => Reader.onStream_pull (pulled σ others turns)⟩
  · right
    let s : Stream := { r.stream with transport := t }
    have between : s.bytesLeft = 0 := idle.between
    have ran : ∀ (σ : Type) (others : σ) (turns : List (Turn σ)),
        Reader.onStream Stream.pull ⟨r, ⟨m, others⟩, turns⟩ = .ok (some (s.absorb words).1)
          ⟨{ r with stream := (s.absorb words).2 }, ⟨m', others⟩, turns⟩ :=
      fun σ others turns => Reader.onStream_pull (pulled σ others turns)
    change Relaying m' others { q.into r with stream := (s.absorb words).2 } _ at relaying'
    by_cases mark : words.headD 0 = closeMark
    · rw [absorb_mark between mark] at ran relaying'
      exact .inl ⟨_, m', idle.ends relaying started mark relaying', rfl, ran⟩
    · have comes : (decode 0 read).2 = 0 := (congrArg Prod.snd relaying.held).trans between
      have noClose : closes 0 read = false := relaying.ended.trans isOpen
      have more := relaying'.said
      rw [List.append_assoc, List.singleton_append] at more
      rcases next_message relaying.wide relaying.short more comes noClose with
        final | ⟨message, next, head⟩
      · rw [final] at mark
        exact absurd rfl mark
      · have short : message.length < Ring.lengthLimit :=
          relaying.short message (List.mem_of_getElem? next)
        have total : (words.headD 0).toNat = message.length := by
          rw [head]
          exact UInt64.toNat_ofNat_of_lt' (Nat.lt_trans short (by decide))
        rw [started] at next
        rw [absorb_length between mark] at ran relaying'
        exact .inr ⟨_, m', _, message, _,
          idle.begins (s := s) relaying started mark total relaying.valid idle.empty relaying',
          idle.new, next, total, ran⟩

/-- A wait for the next byte string ends with its length, or with the end of the stream, or
when nothing waits and no turn is left. -/
theorem ends_awaitStart {now : Moment Reader Party}
    (amid : Task.Amid (Relation.ReflTransGen (Does .speaker)) (Idle q count p) now) :
    Task.Ends (Reader.awaitStart now)
      (fun total now => ∃ message, now.scene.others.sent[count]? = some message ∧
        total.toNat = message.length ∧ now.self.filled = [] ∧
        Task.Amid (Relation.ReflTransGen (Does .speaker))
          (Hearing q message.length (some (count + 1)) p) now)
      fun stop now => Idle q count p now.self now.scene ∧
        match stop with
        | .failed e => e = .closed ∧ now.self.stream.closed = true
        | .halted h => h = .stalled ∧ now.turns = [] ∧ now.self.stream.closed = false ∧
            now.self.stream.transport.waiting now.scene.machine = [] := by
  unfold Reader.awaitStart
  refine Task.ends_await_all (fun r scene => Idle q count p r scene ∧
    r.stream.closed = false ∧ r.stream.transport.waiting scene.machine = []) ?_ ?_ ?_ amid
  · rintro ⟨r, ⟨m, others⟩, turns⟩ ⟨idle, steady⟩
    rw [Task.self_bind]
    cases closed : r.stream.closed with
    | true =>
        rw [if_pos rfl]
        exact ⟨idle, rfl, closed⟩
    | false =>
        rw [if_neg Bool.false_ne_true]
        change Task.Ends ((Reader.onStream Stream.pull >>= _) ⟨r, ⟨m, others⟩, turns⟩) _ _
        rcases idle.pull closed with ⟨nothing, ran⟩ | ⟨r', m', idle', shut, ran⟩ |
          ⟨r', m', read', message, total, reading, new, next, same, ran⟩
        · rw [Task.bind_ok (ran _ _ _)]
          exact ⟨⟨idle, closed, nothing⟩, rfl⟩
        · rw [Task.bind_ok (ran _ _ _)]
          exact ⟨idle', rfl, shut⟩
        · rw [Task.bind_ok (ran _ _ _)]
          exact ⟨message, next, same, new, ⟨⟨read', reading⟩, idle.since⟩, steady⟩
  · rintro r scene scene' ⟨idle, -⟩ does
    exact idle.does does
  · rintro now turns ⟨idle, isOpen, nothing⟩
    exact ⟨idle, rfl, turns, isOpen, nothing⟩

/-! ### Reading the rest of a byte string -/

/-- What was sent is not changed by what is sent later. -/
theorem Party.Since.take_eq {p' : Party} (since : p.Since p') (begun : count ≤ p.sent.length) :
    p'.sent.take count = p.sent.take count := by
  obtain ⟨more, same⟩ := since.sent
  rw [← same, List.take_append_of_le_length begun]

theorem Party.Since.getElem?_eq {p' : Party} (since : p.Since p') {message : List UInt8}
    (next : p.sent[count]? = some message) : p'.sent[count]? = some message := by
  obtain ⟨more, same⟩ := since.sent
  obtain ⟨inside, -⟩ := List.getElem?_eq_some_iff.mp next
  rw [← same, List.getElem?_append_left inside]
  exact next

/-- A buffer for just the byte string that has begun is filled with it and nothing is held
then, unless some of the string does not come. -/
theorem ends_receiveAll_begun {message : List UInt8} {now : Moment Reader Party}
    (next : now.scene.others.sent[count]? = some message)
    (got : q.got = (now.scene.others.sent.take count).flatten)
    (amid : Task.Amid (Relation.ReflTransGen (Does .speaker))
      (Hearing q message.length (some (count + 1)) p) now) :
    Task.Ends (Reader.receiveAll message.length now)
      (fun _ now => now.self.filled = message ∧
        now.scene.others.sent[count]? = some message ∧
        Idle (q.into now.self) (count + 1) p { stream := now.self.stream } now.scene)
      fun stop now => stop = .halted .stalled ∧ now.turns = [] ∧
        now.scene.others.transmitted ≤ count ∧
        ¬ (now.scene.others.stream.closed = true ∧ now.scene.others.rest = []) := by
  obtain ⟨⟨reading, before⟩, steady⟩ := amid
  have ends := ends_receiveAll (p := now.scene.others) ⟨⟨reading, .refl _⟩, steady⟩
  refine ends.mono ?_ ?_
  · rintro _ now' ⟨⟨⟨read, reading'⟩, since⟩, full⟩
    obtain ⟨expected, started⟩ := reading'.meant _ rfl
    have none : now'.self.stream.backlog.length = 0 ∧ now'.self.stream.bytesLeft.toNat = 0 := by
      rw [Reader.expected, full] at expected
      omega
    have between : now'.self.stream.bytesLeft = 0 := UInt64.toNat_inj.mp none.2
    have empty : now'.self.stream.backlog = [] := List.length_eq_zero_iff.mp none.1
    have same := (reading'.relaying.strings between).2
    have next' := since.getElem?_eq next
    obtain ⟨inside, -⟩ := List.getElem?_eq_some_iff.mp next
    rw [started, List.take_add_one, next', since.take_eq (Nat.le_of_lt inside), Option.toList_some,
      List.flatten_append, List.flatten_singleton, ← got] at same
    change q.got ++ now'.self.filled ++ now'.self.stream.backlog = _ at same
    rw [empty, List.append_nil] at same
    refine ⟨List.append_cancel_left same, next', ⟨read, ?_, started⟩, rfl, between, empty,
      before.trans since⟩
    have relaying := reading'.relaying
    rw [← Party.into_new (q.into now'.self)] at relaying
    exact relaying
  · rintro stop now' ⟨⟨⟨read, reading'⟩, since⟩, less, held, reason⟩
    obtain ⟨expected, started⟩ := reading'.meant _ rfl
    have more : now'.self.stream.bytesLeft ≠ 0 := by
      intro none
      rw [Reader.expected, held, none] at expected
      exact Nat.ne_of_lt less expected
    cases stop with
    | failed e =>
        obtain ⟨-, -, -, -, between, -⟩ := reading'.relaying.complete reason.2
        exact absurd between more
    | halted h =>
        obtain ⟨rfl, last, isOpen, nothing⟩ := reason
        obtain ⟨most, all⟩ := reading'.relaying.transmitted_le nothing isOpen
        rw [started] at most all
        refine ⟨rfl, last, ?_, ?_⟩
        · by_contra further
          exact more (all (by omega))
        · rintro ⟨closed, idle⟩
          have same := reading'.relaying.closed_eq nothing idle
          rw [closed] at same
          exact Bool.false_ne_true (isOpen.symm.trans same)

/-! ### Whole message reads -/

/-- The buffer of a message read has the byte string, or is as it was. -/
theorem ends_receiveMessage (length : Nat) {now : Moment Reader Party}
    (begun : count ≤ p.sent.length) (got : q.got = (p.sent.take count).flatten)
    (amid : Task.Amid (Relation.ReflTransGen (Does .speaker)) (Idle q count p) now) :
    Task.Ends (Reader.receiveMessage length now)
      (fun total now => total = now.self.filled.length ∧ total ≤ length ∧
        now.scene.others.sent[count]? = some now.self.filled ∧
        Idle (q.into now.self) (count + 1) p { stream := now.self.stream } now.scene)
      fun stop now => match stop with
        | .failed e => now.self.filled = [] ∧
            (e = .overflow ∧ (∃ message, now.scene.others.sent[count]? = some message ∧
                length < message.length ∧
                Hearing q message.length (some (count + 1)) p now.self now.scene) ∨
              e = .closed ∧ now.self.stream.closed = true ∧ Idle q count p now.self now.scene)
        | .halted h => h = .stalled ∧ now.turns = [] ∧ now.scene.others.transmitted ≤ count ∧
            ¬ (now.scene.others.stream.closed = true ∧ now.scene.others.rest = []) := by
  obtain ⟨r, scene, turns⟩ := now
  obtain ⟨idle, steady⟩ := amid
  have held := idle.buffered_eq
  unfold Reader.receiveMessage
  rw [Task.self_bind, if_neg (not_or.mpr ⟨not_not.mpr idle.between, not_not.mpr held⟩)]
  change Task.Ends ((Reader.awaitStart >>= _) ⟨r, scene, turns⟩) _ _
  apply Task.ends_bind
  refine (ends_awaitStart ⟨idle, steady⟩).mono ?_ ?_
  · rintro total now' ⟨message, next, same, new, amid'⟩
    rw [same]
    by_cases fits : message.length > length
    · rw [if_pos fits]
      exact ⟨new, .inl ⟨rfl, message, next, fits, amid'.here⟩⟩
    · rw [if_neg fits]
      change Task.Ends ((Reader.receiveAll message.length >>= _) now') _ _
      apply Task.ends_bind
      rw [← amid'.here.2.take_eq begun] at got
      refine (ends_receiveAll_begun next got amid').mono ?_ ?_
      · rintro _ now'' ⟨rfl, next', idle'⟩
        exact ⟨rfl, Nat.le_of_not_lt fits, next', idle'⟩
      · rintro stop now'' ⟨rfl, rest⟩
        exact ⟨rfl, rest⟩
  · rintro stop now' ⟨idle', reason⟩
    cases stop with
    | failed e => exact ⟨idle'.new, .inr ⟨reason.1, reason.2, idle'⟩⟩
    | halted h =>
        obtain ⟨rfl, last, isOpen, nothing⟩ := reason
        obtain ⟨read, relaying, started⟩ := idle'.relaying
        obtain ⟨most, -⟩ := relaying.transmitted_le nothing isOpen
        rw [started] at most
        refine ⟨rfl, last, most, ?_⟩
        rintro ⟨closed, idle⟩
        have same := relaying.closed_eq nothing idle
        rw [closed] at same
        exact Bool.false_ne_true (isOpen.symm.trans same)

/-- A new buffer continues a read whose buffer was left as it was. -/
theorem Hearing.renew {r : Reader} {scene : Scene Party} {upTo : Nat} {string : Option Nat}
    (hearing : Hearing q upTo string p r scene) (new : r.filled = []) :
    Hearing (q.into r) upTo string p { stream := r.stream } scene := by
  obtain ⟨⟨read, reading⟩, since⟩ := hearing
  have relaying := reading.relaying
  rw [← Party.into_new (q.into r)] at relaying
  refine ⟨⟨read, relaying, Nat.zero_le _, fun begun mem => ?_⟩, since⟩
  obtain ⟨expected, started⟩ := reading.meant begun mem
  rw [Reader.expected, new] at expected
  exact ⟨expected, started⟩

theorem Idle.renew {r : Reader} {scene : Scene Party} (idle : Idle q count p r scene) :
    Idle (q.into r) count p { stream := r.stream } scene := by
  obtain ⟨read, relaying, started⟩ := idle.relaying
  rw [← Party.into_new (q.into r)] at relaying
  exact ⟨⟨read, relaying, started⟩, rfl, idle.between, idle.empty, idle.since⟩

end Stream

end Conduit

/-
# A speaker, whatever fails

An operation that sends gives its messages to the transport one after the other, and ends
with the first that is refused for good. Those before it were accepted, and stay accepted
although the operation fails (`Op.accepted`): they are a part of the messages that the
operation has to send, and all of them exactly if a send returns (`Saying.Sound`).

`ends_speak` says that nothing else is put at the peer's endpoint, whatever is planned for
the sender's, and whatever the others do while a message waits for room.
-/

import Conduit.Proofs.Stream.Hearing

namespace Conduit

/-- The messages that the transport accepts when it is given these one after the other, up
to the first that it does not. -/
def Transport.accepted {σ : Type} :
    List (List UInt64 × SendFlags) → Moment Transport σ → List (List UInt64)
  | [], _ => []
  | (words, flags) :: rest, now =>
      match Transport.send { words } flags now with
      | .ok () now => words :: accepted rest now
      | .error _ _ => []

namespace Stream

/-- Over a capability channel the last of the further messages waits for the receiver. -/
def flagged : List (List UInt64) → List (List UInt64 × SendFlags)
  | [] => []
  | [words] => [(words, SendFlags.standard.withSync)]
  | words :: rest => (words, SendFlags.standard) :: flagged rest

/-- The messages of an operation, as they are sent over a capability channel. -/
def Op.plan (width : Nat) : Op → List (List UInt64 × SendFlags)
  | send data => (headWords width data, SendFlags.standard) :: flagged (tailWords width data)
  | close => [(closeWords width, SendFlags.standard)]
  | receiveAvailable _ | receive _ | receiveAll _ | receiveMessage _ => []

/-- The messages that are accepted while an operation runs. A closed stream sends none. -/
def Op.accepted {σ : Type} (op : Op) (now : Moment Stream σ) : List (List UInt64) :=
  if now.self.closed then []
  else Transport.accepted (op.plan now.self.transport.width)
    ⟨now.self.transport, now.scene, now.turns⟩

/-- The task of an operation that sends. -/
def Op.speak {σ : Type} : Op → Task Stream σ Unit
  | send data => Stream.send data
  | close => Stream.close
  | receiveAvailable _ | receive _ | receiveAll _ | receiveMessage _ => return ()

/-- What an operation of a speaker was, which of its messages were accepted, and how it
ended. -/
structure Saying where
  op : Op
  accepted : List (List UInt64)
  outcome : Except Stop Unit

/-- Some of the messages were accepted, but not all. -/
def Saying.Torn (saying : Saying) : Prop :=
  saying.accepted ≠ [] ∧ saying.accepted ≠ saying.op.messages Letter.width

/-- The messages that were accepted are the first ones of the operation: all of them if a
send returned, and not all of them if it failed. That a close returned tells neither. -/
structure Saying.Sound (saying : Saying) : Prop where
  speaks : saying.op.part = .speaker
  short : saying.op.Short
  front : saying.accepted <+: saying.op.messages Letter.width
  whole : saying.outcome = .ok () → ∀ data, saying.op = .send data →
    saying.accepted = wireForm Letter.width data
  partly : saying.outcome ≠ .ok () → saying.accepted ≠ saying.op.messages Letter.width

variable {σ : Type} {a : Endpoint} {home : Cap} {rely : Scene σ → Scene σ → Prop}
  {hears : List (List UInt64) → Scene σ → Prop} {said : List (List UInt64)}

/-- Whatever the others do, what was accepted for this endpoint is heard, and so is what
comes behind it. -/
structure Heeded (home : Cap) (rely : Scene σ → Scene σ → Prop)
    (hears : List (List UInt64) → Scene σ → Prop) : Prop where
  lasting : ∀ said, Lasting rely (hears said)
  posts : ∀ said words m m' others, words.length = Letter.width → hears said ⟨m, others⟩ →
    m'.kernel.waiting = Function.update m.kernel.waiting home
      (m.kernel.waiting home ++ [Letter.plain words]) → hears (said ++ [words]) ⟨m', others⟩

/-- What is known when an operation ends that started at a moment: the messages that were
accepted meanwhile are heard, and it ended as they say. -/
structure Spoken (a : Endpoint) (rely : Scene σ → Scene σ → Prop)
    (hears : List (List UInt64) → Scene σ → Prop) (said : List (List UInt64)) (op : Op)
    (start : Moment Stream σ) (outcome : Except Stop Unit) (last : Moment Stream σ) : Prop where
  across : last.self.transport = .endpoint a
  among : Task.Among rely (fun _ => hears (said ++ op.accepted start)) last
  sound : Saying.Sound ⟨op, op.accepted start, outcome⟩

section Speaking

variable (heeded : Heeded home rely hears) (peer : a.peer = some home)

include heeded peer

/-- A message is accepted and heard, or it is not. -/
theorem ends_utter {s : Stream} (across : s.transport = .endpoint a) {words : List UInt64}
    (fits : words.length = Letter.width) (flags : SendFlags) {now : Moment Stream σ}
    (among : Task.Among rely (Still s (hears said)) now) :
    Task.Ends (onTransport (Transport.send { words } flags) now)
      (fun _ now' => Task.Among rely (Still s (hears (said ++ [words]))) now' ∧
        Transport.send { words } flags ⟨now.self.transport, now.scene, now.turns⟩ =
          .ok () ⟨now'.self.transport, now'.scene, now'.turns⟩)
      fun stop now' => Task.Among rely (Still s (hears said)) now' ∧ ∃ inner,
        Transport.send { words } flags ⟨now.self.transport, now.scene, now.turns⟩ =
          .error stop inner := by
  obtain rfl := among.here.1
  have start : Task.Among rely (Still (.endpoint a) (hears said))
      ⟨now.self.transport, now.scene, now.turns⟩ := ⟨⟨across, among.here.2⟩, among.lawful⟩
  have ends := Transport.ends_send peer (heeded.lasting said) { words } flags
    (fun m m' others => heeded.posts said words m m' others fits) start
  apply Task.ends_within
  cases ran : Transport.send { words } flags ⟨now.self.transport, now.scene, now.turns⟩ with
  | ok u inner =>
      rw [ran] at ends
      refine ⟨⟨⟨?_, ends.here.2⟩, ends.lawful⟩, rfl⟩
      rw [ends.here.1, ← across]
  | error stop inner =>
      rw [ran] at ends
      refine ⟨⟨⟨?_, ends.here.2⟩, ends.lawful⟩, inner, rfl⟩
      rw [ends.here.1, ← across]

/-- What came of messages that were to be sent: those that were accepted are heard, and
these are all, or there is a first one that was not. -/
theorem ends_sendTail_accepted {s : Stream} (across : s.transport = .endpoint a)
    {rest : List (List UInt64)} (fits : ∀ words ∈ rest, words.length = Letter.width)
    {now : Moment Stream σ} (among : Task.Among rely (Still s (hears said)) now) :
    Task.Ends (sendTail rest now)
      (fun _ now' => Task.Among rely (Still s (hears (said ++ rest))) now' ∧
        Transport.accepted (flagged rest) ⟨now.self.transport, now.scene, now.turns⟩ = rest)
      fun _ now' => ∃ first words later, rest = first ++ words :: later ∧
        Transport.accepted (flagged rest) ⟨now.self.transport, now.scene, now.turns⟩ = first ∧
        Task.Among rely (Still s (hears (said ++ first))) now' := by
  induction rest generalizing said now with
  | nil => exact ⟨by rwa [List.append_nil], rfl⟩
  | cons words rest ih =>
      have fit := fits words List.mem_cons_self
      cases rest with
      | nil =>
          unfold sendTail
          rw [Task.self_bind]
          have isEndpoint : now.self.transport.isEndpoint = true := by
            rw [among.here.1, across]
            rfl
          rw [if_pos isEndpoint]
          refine (ends_utter heeded peer across fit _ among).mono ?_ ?_
          · rintro _ now' ⟨among', ran⟩
            refine ⟨among', ?_⟩
            simp only [flagged, Transport.accepted, ran]
          · rintro stop now' ⟨among', inner, ran⟩
            refine ⟨[], words, [], rfl, ?_, by rwa [List.append_nil]⟩
            simp only [flagged, Transport.accepted, ran]
      | cons further rest =>
          unfold sendTail
          apply Task.ends_bind
          refine (ends_utter heeded peer across fit _ among).mono ?_ ?_
          · rintro _ mid ⟨among', ran⟩
            have later := ih (fun w mem => fits w (List.mem_cons_of_mem _ mem)) among'
            refine later.mono ?_ ?_
            · rintro _ now' ⟨among'', accepted⟩
              rw [List.append_assoc] at among''
              refine ⟨among'', ?_⟩
              simp only [flagged, Transport.accepted, ran]
              exact congrArg _ accepted
            · rintro stop now' ⟨first, w, last, split, accepted, among''⟩
              rw [List.append_assoc] at among''
              refine ⟨words :: first, w, last, congrArg _ split, ?_, among''⟩
              simp only [flagged, Transport.accepted, ran]
              exact congrArg _ accepted
          · rintro stop now' ⟨among', inner, ran⟩
            refine ⟨[], words, further :: rest, rfl, ?_, by rwa [List.append_nil]⟩
            simp only [flagged, Transport.accepted, ran]

omit heeded peer in
theorem Saying.sound_nil (op : Op) (speaks : op.part = .speaker) (short : op.Short)
    {outcome : Except Stop Unit} (silent : outcome = .ok () → op = .close) :
    Saying.Sound ⟨op, [], outcome⟩ where
  speaks := speaks
  short := short
  front := List.nil_prefix
  whole returned data isSend := by
    have isClose := silent returned
    change op = .send data at isSend
    rw [isClose] at isSend
    cases isSend
  partly _ none := by
    cases op with
    | send data => exact wireForm_ne_nil _ _ none.symm
    | close => cases none
    | _ => cases speaks

/-- A byte string is sent whole, or up to the first message that is refused. -/
theorem ends_send_accepted {data : List UInt8} (short : data.length < Ring.lengthLimit)
    {s : Stream} (across : s.transport = .endpoint a) {now : Moment Stream σ}
    (among : Task.Among rely (Still s (hears said)) now) :
    Task.Ends (Stream.send data now)
      (fun _ now' =>
        Task.Among rely (Still s (hears (said ++ (Op.send data).accepted now))) now' ∧
          Saying.Sound ⟨.send data, (Op.send data).accepted now, .ok ()⟩)
      fun stop now' =>
        Task.Among rely (Still s (hears (said ++ (Op.send data).accepted now))) now' ∧
          Saying.Sound ⟨.send data, (Op.send data).accepted now, .error stop⟩ := by
  have wired : now.self.transport = .endpoint a := among.here.1 ▸ across
  have width : now.self.transport.width = Letter.width := by rw [wired]; rfl
  have fits : ∀ words ∈ wireForm Letter.width data, words.length = Letter.width := fun words mem =>
    length_of_mem_wireForm mem (by decide)
  -- The messages that were accepted before one was refused are not all.
  have torn : ∀ first {later words stop}, wireForm Letter.width data = first ++ words :: later →
      Saying.Sound ⟨.send data, first, .error stop⟩ := by
    intro first later words stop split
    refine ⟨rfl, short, ⟨words :: later, split.symm⟩, (fun returned => by cases returned), ?_⟩
    intro _ all
    have lengths := congrArg List.length (split.symm.trans all.symm)
    rw [List.length_append, List.length_cons] at lengths
    change first.length + _ = first.length at lengths
    omega
  unfold Stream.send Op.accepted
  rw [Task.self_bind]
  by_cases closed : now.self.closed = true
  · rw [if_pos closed, if_pos closed, List.append_nil]
    exact ⟨among, Saying.sound_nil (.send data) rfl short fun returned => by cases returned⟩
  rw [if_neg closed, if_neg closed, if_neg (ofNat_ne_closeMark short), width]
  split
  · rename_i unpeered
    rw [wired] at unpeered
    rw [Transport.endpoint.inj unpeered] at peer
    cases peer
  apply Task.ends_bind
  refine (ends_utter heeded peer across (fits _ List.mem_cons_self) _ among).mono ?_ ?_
  · rintro _ mid ⟨among', ran⟩
    refine (ends_sendTail_accepted heeded peer across
      (fun w mem => fits w (List.mem_cons_of_mem _ mem)) among').mono ?_ ?_
    · rintro _ now' ⟨among'', accepted⟩
      simp only [Op.plan, Transport.accepted, ran, accepted]
      rw [List.append_assoc] at among''
      refine ⟨among'', rfl, short, List.prefix_refl _, ?_, fun failed => (failed rfl).elim⟩
      rintro - _ same
      rw [← Op.send.inj same]
      rfl
    · rintro stop now' ⟨first, words, later, split, accepted, among''⟩
      simp only [Op.plan, Transport.accepted, ran, accepted]
      rw [List.append_assoc] at among''
      exact ⟨among'', torn _ (congrArg (headWords Letter.width data :: ·) split)⟩
  · rintro stop now' ⟨among', inner, ran⟩
    simp only [Op.plan, Transport.accepted, ran, List.append_nil]
    exact ⟨among', torn [] rfl⟩

/-- The announcement of the end is accepted, or it is not, which nobody is told. -/
theorem ends_close_accepted {s : Stream} (across : s.transport = .endpoint a)
    {now : Moment Stream σ} (among : Task.Among rely (Still s (hears said)) now) :
    Task.Ends (Stream.close now)
      (fun _ now' => Task.Among rely (Still { s with closed := true }
          (hears (said ++ Op.close.accepted now))) now' ∧
        Saying.Sound ⟨.close, Op.close.accepted now, .ok ()⟩)
      fun stop now' => Task.Among rely (Still { s with closed := true }
          (hears (said ++ Op.close.accepted now))) now' ∧
        Saying.Sound ⟨.close, Op.close.accepted now, .error stop⟩ := by
  obtain rfl := among.here.1
  have width : now.self.transport.width = Letter.width := by rw [across]; rfl
  unfold Stream.close Op.accepted
  rw [Task.self_bind]
  by_cases closed : now.self.closed = true
  · rw [if_pos closed, if_pos closed, List.append_nil]
    have same : { now.self with closed := true } = now.self := by rw [← closed]
    rw [same]
    exact ⟨among, Saying.sound_nil .close rfl trivial fun _ => rfl⟩
  rw [if_neg closed, if_neg closed, Task.setSelf_bind, width]
  apply Task.ends_bind
  apply Task.ends_settle
  have start : Task.Among rely (Still { now.self with closed := true } (hears said))
      { now with self := { now.self with closed := true } } :=
    ⟨⟨rfl, among.here.2⟩, among.lawful⟩
  refine (ends_utter heeded peer (s := { now.self with closed := true }) across
    (length_closeWords (by decide)) _ start).mono ?_ ?_
  · rintro _ now' ⟨among', ran⟩
    simp only [Op.plan, Transport.accepted, ran]
    exact ⟨among', rfl, trivial, List.prefix_refl _, (fun _ _ same => by cases same),
      fun failed => (failed rfl).elim⟩
  · rintro (e | h) now' ⟨among', inner, ran⟩
    · simp only [Op.plan, Transport.accepted, ran, List.append_nil]
      exact ⟨among', Saying.sound_nil .close rfl trivial fun _ => rfl⟩
    · simp only [Op.plan, Transport.accepted, ran, List.append_nil]
      exact ⟨among', Saying.sound_nil .close rfl trivial fun _ => rfl⟩

/-- However an operation that sends ends, the messages that were accepted meanwhile are
heard, and no others. -/
theorem ends_speak {op : Op} (speaks : op.part = .speaker) (short : op.Short)
    {now : Moment Stream σ} (across : now.self.transport = .endpoint a)
    (among : Task.Among rely (fun _ => hears said) now) :
    Task.Ends (op.speak now) (fun u last => Spoken a rely hears said op now (.ok u) last)
      fun stop last => Spoken a rely hears said op now (.error stop) last := by
  have start : Task.Among rely (Still now.self (hears said)) now :=
    ⟨⟨rfl, among.here⟩, among.lawful⟩
  cases op with
  | send data =>
      refine (ends_send_accepted heeded peer short across start).mono ?_ ?_
      · rintro _ now' ⟨⟨⟨same, heard⟩, lawful⟩, sound⟩
        exact ⟨same ▸ across, ⟨heard, lawful⟩, sound⟩
      · rintro stop now' ⟨⟨⟨same, heard⟩, lawful⟩, sound⟩
        exact ⟨same ▸ across, ⟨heard, lawful⟩, sound⟩
  | close =>
      refine (ends_close_accepted heeded peer across start).mono ?_ ?_
      · rintro _ now' ⟨⟨⟨same, heard⟩, lawful⟩, sound⟩
        exact ⟨same ▸ across, ⟨heard, lawful⟩, sound⟩
      · rintro stop now' ⟨⟨⟨same, heard⟩, lawful⟩, sound⟩
        exact ⟨same ▸ across, ⟨heard, lawful⟩, sound⟩
  | _ => cases speaks

end Speaking

end Stream

end Conduit

/-
# Transports keep the width of a message

Whatever a transport is used for, and however that ends, its messages are as wide as before,
and none that is received is wider. Nothing is assumed about the machine or the peer.
-/

import Conduit.Proofs.Call.Traces

namespace Conduit

variable {σ : Type}

theorem Memory.length_loadAll {m : Memory} {v : View} {index count : Nat} {words : List UInt64}
    (loaded : m.loadAll v index count = .ok words) : words.length = count := by
  induction count generalizing index words with
  | zero =>
      cases loaded
      rfl
  | succ count ih =>
      obtain ⟨word, -, loaded⟩ := of_bind_ok loaded
      obtain ⟨rest, more, loaded⟩ := of_bind_ok loaded
      cases loaded
      rw [List.length_cons, ih more]

/-- A message that is received fits a slot, and slots stay as wide as they were. -/
theorem SlotChannel.receive_width {c c' : SlotChannel} {limit : Nat} {m m' : Machine}
    {taken : Option (List UInt64)} (ran : c.receive limit m = .ok (taken, c', m')) :
    c'.payloadWords = c.payloadWords ∧ ∀ words ∈ taken, words.length ≤ c.payloadWords := by
  obtain ⟨rfl, rfl, -⟩ | ⟨words, memory, rfl, read, -, rfl, -⟩ := receive_cases ran
  · exact ⟨rfl, fun _ mem => by cases mem⟩
  · refine ⟨rfl, fun words' mem => ?_⟩
    cases mem
    rw [Memory.length_loadAll read]
    exact Nat.min_le_right _ _

/-- A slot that is filled moves the cursor, and changes the memory and the bells alone. -/
theorem SlotChannel.changed_of_send_filled {c c' : SlotChannel} {payload : List UInt64}
    {m m' : Machine} (filled : c.send payload m = .ok (.ok true, c', m')) :
    c' = { c with sendIndex := (c.sendIndex + 1) % c.slots } ∧
      ∃ memory bells, m' = { m with memory, bells } := by
  obtain ⟨unfilled, -⟩ | ⟨-, memory, bells, -, -, -, rfl, rfl⟩ := send_cases filled
  · exact absurd rfl unfilled
  · exact ⟨rfl, memory, bells, rfl⟩

theorem SlotChannel.send_width {c c' : SlotChannel} {payload : List UInt64} {m m' : Machine}
    {answer : Except Error Bool} (ran : c.send payload m = .ok (answer, c', m')) :
    c'.payloadWords = c.payloadWords := by
  by_cases filled : answer = .ok true
  · subst filled
    rw [(changed_of_send_filled ran).1]
    rfl
  · rw [(eq_of_send_unfilled ran filled).1]

namespace Transport

variable {width : Nat}

/-- An endpoint that receives stays what it is, and a message that it gives fills a letter. -/
theorem ends_receive_endpoint {ep : Endpoint} {now : Moment Transport σ}
    (across : now.self = .endpoint ep) :
    Task.Ends (receive now)
      (fun taken now' => now'.self = .endpoint ep ∧
        ∀ message ∈ taken, message.words.length = Letter.width)
      fun _ now' => now'.self = .endpoint ep := by
  unfold receive
  rw [Task.self_bind, across]
  have kept : Task.KeepsSelf (· = Transport.endpoint ep)
      (Task.awaitAnswer (Task.asking ep.recv) : Task Transport σ _) :=
    .awaitAnswer fun _ same => same
  apply Task.ends_bind
  refine (kept now across).mono ?_ fun _ _ same => same
  rintro (cause | letter) mid same
  · cases cause with
    | noMessage => exact ⟨same, fun _ mem => by cases mem⟩
    | _ => exact same
  · have full : letter.words.toList.length = Letter.width := letter.words.length_toList
    have granted : Task.KeepsSelf (· = Transport.endpoint ep)
        (Task.request ep.allocRecvSlot : Task Transport σ Unit) := .request _
    by_cases carries : letter.cap.isSome = true
    · simp only [carries, if_true]
      apply Task.ends_bind
      refine (granted mid same).mono ?_ fun _ _ same => same
      rintro _ now' same
      refine ⟨same, fun message mem => ?_⟩
      cases mem
      exact full
    · simp only [carries]
      refine ⟨same, fun message mem => ?_⟩
      cases mem
      exact full

/-- However receiving ends, messages are as wide as before, and so is one that was received. -/
theorem ends_receive_width (now : Moment Transport σ) :
    Task.Ends (receive now)
      (fun taken now' => now'.self.width = now.self.width ∧
        ∀ message ∈ taken, message.words.length ≤ now.self.width)
      fun _ now' => now'.self.width = now.self.width := by
  cases across : now.self with
  | slots chan =>
      unfold receive
      rw [Task.self_bind, across]
      simp only [Task.machine_bind]
      cases ran : chan.receive chan.payloadWords now.scene.machine with
      | error cause =>
          change now.self.width = _
          rw [across]
      | ok result =>
          obtain ⟨words, chan', m⟩ := result
          obtain ⟨same, fits⟩ := SlotChannel.receive_width ran
          refine ⟨same, fun message mem => ?_⟩
          obtain ⟨words, given, rfl⟩ := Option.map_eq_some_iff.mp mem
          exact fits words given
  | endpoint ep =>
      refine (ends_receive_endpoint across).mono ?_ fun _ _ same => congrArg width same
      rintro taken now' ⟨same, full⟩
      exact ⟨congrArg width same, fun message mem => Nat.le_of_eq (full message mem)⟩

theorem keepsWidth_offer (message : Message) (flags : SendFlags) :
    Task.KeepsSelf (fun t => t.width = width) (offer message flags : Task Transport σ _) := by
  intro now kept
  unfold offer
  rw [Task.self_bind]
  cases across : now.self with
  | endpoint ep =>
      have asked : Task.KeepsSelf (fun t => t.width = width)
          (Task.asking (ep.send flags ⟨Letter.fit message.words, message.cap⟩) :
            Task Transport σ _) := fun _ kept => kept
      refine Task.KeepsSelf.bind asked (fun answer => ?_) now kept
      rcases answer with cause | _
      · cases cause with
        | transient => exact .pure _
        | _ => exact .fail _
      · exact .pure _
  | slots chan =>
      simp only [Task.machine_bind]
      cases ran : chan.send message.words now.scene.machine with
      | error cause => exact kept
      | ok result =>
          obtain ⟨answer, chan', m⟩ := result
          have kept' : (slots chan').width = width := by
            rw [across] at kept
            exact (SlotChannel.send_width ran).trans kept
          rcases answer with e | _ | _
          · exact kept'
          · exact kept'
          · exact kept'

theorem keepsWidth_send (message : Message) (flags : SendFlags) :
    Task.KeepsSelf (fun t => t.width = width) (send message flags : Task Transport σ _) := by
  have waits : Task.KeepsSelf (fun t => t.width = width)
      (Task.await (offer message flags) : Task Transport σ Unit) :=
    .await (keepsWidth_offer message flags)
  intro now kept
  unfold send
  rw [Task.self_bind]
  cases now.self with
  | endpoint ep => exact waits now kept
  | slots chan =>
      simp only
      split
      · exact kept
      · split
        · exact kept
        · exact waits now kept

end Transport

end Conduit

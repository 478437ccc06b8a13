/-
# Bindings that were accepted

A binding is refused if its values do not travel in one message, and nothing that a party does
changes one that was accepted: the pages of a message type come and go, but its binding stays
until another one is accepted in its place (`Accepted.deal`). So all bindings of a party are
simple, wherever it gets (`Reached.accepted`), and then it is in order (`Reached.inOrder`).
-/

import Conduit.Proofs.Call.Panics

namespace Conduit.Rpc

variable {η σ : Type} {rpc : Rpc η} {s s' : Seat η}

/-- All bindings of the party are simple. -/
def Accepted (rpc : Rpc η) : Prop :=
  ∀ t binding, rpc.binding? t = some binding → binding.isSimple = true

namespace Accepted

/-- The entry of one message type may change, if its binding is simple. -/
theorem record (accepted : Accepted rpc) {entries : Table MessageType Entry} {t : MessageType}
    (others : ∀ t', t ≠ t' → entries.get? t' = rpc.entries.get? t')
    (simple : ∀ entry, entries.get? t = some entry → entry.binding.isSimple = true) :
    Accepted { rpc with entries } := by
  intro t' binding known
  by_cases same : t = t'
  · subst same
    obtain ⟨entry, there, rfl⟩ := Option.map_eq_some_iff.mp known
    exact simple entry there
  · refine accepted t' binding ?_
    rw [← known, binding?, binding?, others t' same]

theorem register (accepted : Accepted rpc) {b : Binding} {rpc' : Rpc η}
    (registered : rpc.register b = .ok rpc') : Accepted rpc' := by
  intro t binding known
  rw [binding?_register registered] at known
  split at known
  · cases known
    exact (of_register registered).1
  · exact accepted t binding known

theorem registerAll (accepted : Accepted rpc) (bindings : List Binding) :
    Accepted (rpc.registerAll bindings).2 :=
  registerAll_keeps accepted fun _ _ _ _ registered accepted => accepted.register registered

theorem create (transport : Transport) : Accepted (create transport : Rpc η) := by
  refine registerAll ?_ _
  rintro t binding known
  cases known

variable {calls : MessageType → List Value → Prop} {notices : Prop} {events : List Event}

/-- A page of this end is not part of a binding. -/
theorem nearPage (accepted : Accepted rpc) (t : MessageType) (page : Option View) :
    Accepted { rpc with entries := rpc.entries.modify t ({ · with nearPage := page }) } := by
  refine accepted.record (t := t) ?_ ?_
  · intro t' other
    rw [Table.get?_modify, if_neg other]
  · intro entry there
    rw [Table.get?_modify, if_pos rfl] at there
    obtain ⟨before, known, rfl⟩ := Option.map_eq_some_iff.mp there
    exact accepted t before.binding (by rw [binding?, known]; rfl)

/-- A step of the party leaves all bindings simple. -/
theorem deal (accepted : Accepted s.rpc) (deal : Deal calls notices s events s') :
    Accepted s'.rpc := by
  cases deal with
  | @near t page granted => exact accepted.nearPage t (some page)
  | @far request t frame page before inHand asks shown known =>
      refine accepted.record (t := t) ?_ ?_
      · intro t' other
        rw [Table.get?_insert, if_neg other]
      · intro entry there
        rw [Table.get?_insert, if_pos rfl] at there
        cases there
        exact accepted t before.binding (by rw [binding?, known]; rfl)
  | register registered => exact accepted.register registered
  | _ => exact accepted

theorem course {terms : Terms σ} {stage stage' : Stage η σ} (accepted : Accepted stage.2.self)
    (course : Course terms stage events stage') : Accepted stage'.2.self := by
  induction course with
  | nil => exact accepted
  | next _ last ih =>
      cases last with
      | pass paused =>
          obtain ⟨turn, rest, scene, -, -, rfl⟩ := Task.turn_of_pause paused
          exact ih
      | deal deal => exact ih.deal deal
      | aside => exact ih

end Accepted

/-- Nothing is amiss: all bindings were accepted, all pages and panes are there, and the turns to
come lose no memory. -/
structure InOrder (now : Moment (Rpc η) σ) : Prop where
  accepted : Accepted now.self
  sound : Sound ⟨.free, now.self, now.scene.machine⟩
  lawful : ∀ turn ∈ now.turns, Turn.Follows Sustained turn

variable [Handler η σ] (wanders : Wanders η (Sustained : Scene σ → Scene σ → Prop))

include wanders

/-- All bindings are simple, wherever a party gets. -/
theorem Reached.accepted {scene : Scene σ} (reached : Reached rpc scene) : Accepted rpc := by
  induction reached with
  | overEndpoint _ ran =>
      obtain ⟨ep', rfl, -⟩ := created_of_overEndpoint ran
      exact .create _
  | overSlots => exact .create _
  | others _ _ ih => exact ih
  | did _ itself _ completed ih =>
      obtain ⟨events, course⟩ := course_of_completed unbound wanders (fun _ _ => trivial)
        trivial itself completed
      exact ih.course course

theorem Reached.inOrder {scene : Scene σ} (reached : Reached rpc scene) {turns : List (Turn σ)}
    (lawful : ∀ turn ∈ turns, Turn.Follows Sustained turn) : InOrder ⟨rpc, scene, turns⟩ :=
  ⟨reached.accepted wanders, reached.sound wanders, lawful⟩

end Conduit.Rpc

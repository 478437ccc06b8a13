/-
# Registering bindings

A binding that is registered is simple and takes the place of the entry of its type; nothing
else of the party changes (`of_register`). What the registration of each binding keeps, that of
several keeps, wherever it stops (`registerAll_keeps`). Both say what is known of bindings, pages
and the mark of an owed reply afterwards.
-/

import Conduit.Call.Rpc

namespace Conduit.Rpc

variable {η : Type} {rpc rpc' : Rpc η} {binding : Binding} {bindings : List Binding}

/-! ### One binding -/

theorem of_register (registered : rpc.register binding = .ok rpc') :
    binding.isSimple = true ∧
      rpc' = { rpc with entries := rpc.entries.insert binding.type { binding } } := by
  unfold register at registered
  split at registered
  case isTrue simple =>
    cases registered
    exact ⟨simple, rfl⟩
  case isFalse => cases registered

theorem transport_register (registered : rpc.register binding = .ok rpc') :
    rpc'.transport = rpc.transport := by
  obtain ⟨-, rfl⟩ := of_register registered
  rfl

theorem awaiting_register (registered : rpc.register binding = .ok rpc') :
    rpc'.awaiting = rpc.awaiting := by
  obtain ⟨-, rfl⟩ := of_register registered
  rfl

/-- Registering changes the entry of the type alone. -/
theorem get?_register (registered : rpc.register binding = .ok rpc') (t : MessageType) :
    rpc'.entries.get? t = if binding.type = t then some { binding } else rpc.entries.get? t := by
  obtain ⟨-, rfl⟩ := of_register registered
  exact Table.get?_insert ..

theorem binding?_register (registered : rpc.register binding = .ok rpc') (t : MessageType) :
    rpc'.binding? t = if binding.type = t then some binding else rpc.binding? t := by
  unfold binding?
  rw [get?_register registered]
  by_cases same : binding.type = t
  · rw [if_pos same, if_pos same]
    rfl
  · rw [if_neg same, if_neg same]

/-- Registering a binding gives no page. -/
theorem page?_register (registered : rpc.register binding = .ok rpc') (t : MessageType)
    (side : Side) : rpc'.page? t side = if binding.type = t then none else rpc.page? t side := by
  unfold page?
  rw [get?_register registered]
  by_cases same : binding.type = t
  · rw [if_pos same, if_pos same]
    cases side with
    | near => rfl
    | far => rfl
  · rw [if_neg same, if_neg same]

/-! ### Several bindings -/

/-- What the registration of each binding keeps is kept up to the first that is refused. -/
theorem registerAll_keeps {P : Rpc η → Prop} (start : P rpc)
    (keeps : ∀ rpc rpc' : Rpc η, ∀ binding ∈ bindings, rpc.register binding = .ok rpc' →
      P rpc → P rpc') : P (rpc.registerAll bindings).2 := by
  induction bindings generalizing rpc with
  | nil => exact start
  | cons binding rest ih =>
      unfold registerAll
      cases registered : rpc.register binding with
      | error e => exact start
      | ok next =>
          exact ih (keeps _ _ binding List.mem_cons_self registered start)
            fun _ _ later mem => keeps _ _ later (List.mem_cons_of_mem _ mem)

variable (rpc)

/-- Registering bindings changes the entries alone. -/
theorem registerAll_entries (bindings : List Binding) :
    (rpc.registerAll bindings).2 =
      { rpc with entries := (rpc.registerAll bindings).2.entries } := by
  refine registerAll_keeps (P := fun last => last = { rpc with entries := last.entries }) rfl ?_
  intro before after binding _ registered same
  obtain ⟨-, rfl⟩ := of_register registered
  rw [same]

/-- A type that is not registered again keeps its binding. -/
theorem binding?_registerAll {t : MessageType} (other : ∀ binding ∈ bindings, binding.type ≠ t) :
    (rpc.registerAll bindings).2.binding? t = rpc.binding? t := by
  refine registerAll_keeps (P := fun last => last.binding? t = rpc.binding? t) rfl ?_
  intro before after binding mem registered same
  rw [binding?_register registered, if_neg (other binding mem), same]

/-- A type that is registered anew has no page. -/
theorem page?_registerAll {t : MessageType} {side : Side} (none : rpc.page? t side = none) :
    (rpc.registerAll bindings).2.page? t side = Option.none := by
  refine registerAll_keeps (P := fun last => last.page? t side = Option.none) none ?_
  intro before after binding _ registered bare
  rw [page?_register registered, bare, ite_self]

theorem awaiting_registerAll (bindings : List Binding) :
    (rpc.registerAll bindings).2.awaiting = rpc.awaiting := by
  rw [registerAll_entries]

end Conduit.Rpc

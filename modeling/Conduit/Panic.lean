/-
# Panics

A panic is a fault of the program itself: an access outside its bounds, or a
request for more memory than an address space has. It ends whatever runs, so what
returned got through all its parts (`of_bind_ok`, `of_map_ok`).
-/

namespace Conduit

/-- A fault that ends the program. -/
inductive Panic where
  /-- A word is accessed outside a view of shared memory. -/
  | outsideView (index words : Nat)
  /-- An element is accessed outside its collection. -/
  | outOfRange
  /-- More memory is requested than can be addressed. -/
  | tooLarge
  deriving DecidableEq

/-- What a panic says, if it says something specific. -/
def Panic.message? : Panic → Option String
  | outsideView index words =>
      some ("word " ++ toString index ++ " outside frame view of " ++ toString words ++ " words")
  | outOfRange => none
  | tooLarge => none

section Parts

variable {ε α β : Type}

theorem of_bind_ok {first : Except ε α} {next : α → Except ε β} {b : β}
    (returned : (first >>= next) = .ok b) : ∃ a, first = .ok a ∧ next a = .ok b := by
  cases first with
  | error e => cases returned
  | ok a => exact ⟨a, rfl, returned⟩

theorem of_map_ok {first : Except ε α} {f : α → β} {b : β} (returned : first.map f = .ok b) :
    ∃ a, first = .ok a ∧ f a = b := by
  cases first with
  | error e => cases returned
  | ok a => exact ⟨a, rfl, Except.ok.inj returned⟩

end Parts

end Conduit

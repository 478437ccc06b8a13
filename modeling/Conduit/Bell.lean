/-
# Bells

A bell is rung by whoever sends and taken by whoever waits. Rings between two
takes count as one: a bell only remembers that it was rung.
-/

namespace Conduit

/-- A notification target. -/
structure Bell where
  /-- Somebody rang since the bell was last taken. -/
  pending : Bool := false
  /-- How often the bell was rung in all. -/
  rings : Nat := 0
  deriving DecidableEq

/-- The bell after one more ring. -/
def Bell.ring (b : Bell) : Bell := { b with pending := true, rings := b.rings + 1 }

/-- Whether the bell was rung, and the bell after it was taken. -/
def Bell.take (b : Bell) : Bool × Bell := (b.pending, { b with pending := false })

/-- The name of a bell: its number in the order of creation. -/
structure BellId where
  /-- The number. -/
  number : Nat
  deriving DecidableEq

/-- All bells, in the order of creation. -/
structure Bells where
  /-- The bells. -/
  all : Array Bell := #[]

namespace Bells

/-- A new quiet bell. -/
def create (bells : Bells) : BellId × Bells :=
  (⟨bells.all.size⟩, ⟨bells.all.push {}⟩)

/-- The state of a bell; one that was never created is quiet. -/
def get (bells : Bells) (id : BellId) : Bell := bells.all.getD id.number {}

/-- The bells after one of them is rung. -/
def ring (bells : Bells) (id : BellId) : Bells := ⟨bells.all.modify id.number Bell.ring⟩

/-- Whether the bell was rung, and the bells after it was taken. -/
def take (bells : Bells) (id : BellId) : Bool × Bells :=
  ((bells.get id).pending, ⟨bells.all.modify id.number fun b => b.take.2⟩)

end Bells

end Conduit

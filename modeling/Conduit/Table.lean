/-
# Tables

A finite map kept as its list of entries, in the order in which keys were first
inserted. `get?_insert` and `get?_erase` say what a look-up gives after a change.
-/

namespace Conduit

/-- A finite map from keys to values. -/
structure Table (κ ν : Type) where
  /-- The entries; a key's first entry is the one that counts. -/
  entries : List (κ × ν) := []

namespace Table

variable {κ ν : Type} [DecidableEq κ]

/-- The map without keys. -/
def empty : Table κ ν := {}

/-- The value of the first entry with this key. -/
def lookup (key : κ) : List (κ × ν) → Option ν
  | [] => none
  | entry :: rest => if entry.1 = key then some entry.2 else lookup key rest

/-- The entries with the value of `key` replaced, or a new entry at the end. -/
def place (key : κ) (value : ν) : List (κ × ν) → List (κ × ν)
  | [] => [(key, value)]
  | entry :: rest =>
      if entry.1 = key then (key, value) :: rest else entry :: place key value rest

/-- The value of a key. -/
def get? (t : Table κ ν) (key : κ) : Option ν := lookup key t.entries

/-- Tells whether the key has a value. -/
def contains (t : Table κ ν) (key : κ) : Bool := (t.get? key).isSome

/-- The table in which `key` has this value; a new key goes to the end. -/
def insert (t : Table κ ν) (key : κ) (value : ν) : Table κ ν := ⟨place key value t.entries⟩

/-- The table without the key. -/
def erase (t : Table κ ν) (key : κ) : Table κ ν := ⟨t.entries.filter fun entry => entry.1 ≠ key⟩

/-- The table with the value of a key changed, if it has one. -/
def modify (t : Table κ ν) (key : κ) (change : ν → ν) : Table κ ν :=
  match t.get? key with
  | some value => t.insert key (change value)
  | none => t

/-- The keys, in order of first insertion. -/
def keys (t : Table κ ν) : List κ := t.entries.map Prod.fst

/-- The number of entries. -/
def size (t : Table κ ν) : Nat := t.entries.length

theorem lookup_place (key other : κ) (value : ν) (entries : List (κ × ν)) :
    lookup other (place key value entries) =
      if key = other then some value else lookup other entries := by
  induction entries with
  | nil => simp [place, lookup]
  | cons entry rest ih => grind [place, lookup]

theorem lookup_filter (key other : κ) (entries : List (κ × ν)) :
    lookup other (entries.filter fun entry => entry.1 ≠ key) =
      if key = other then none else lookup other entries := by
  induction entries with
  | nil => simp [lookup]
  | cons entry rest ih => grind [lookup]

@[simp] theorem get?_empty (key : κ) : (empty : Table κ ν).get? key = none := rfl

theorem get?_insert (t : Table κ ν) (key other : κ) (value : ν) :
    (t.insert key value).get? other = if key = other then some value else t.get? other :=
  lookup_place key other value t.entries

theorem contains_insert (t : Table κ ν) (key other : κ) (value : ν) :
    (t.insert key value).contains other = true ↔ key = other ∨ t.contains other = true := by
  rw [contains, contains, get?_insert]
  by_cases same : key = other
  · simp [same]
  · simp [same]

/-- Changing a value changes what its key gives, if it gives anything. -/
theorem get?_modify (t : Table κ ν) (key other : κ) (change : ν → ν) :
    (t.modify key change).get? other =
      if key = other then (t.get? other).map change else t.get? other := by
  unfold modify
  by_cases same : key = other
  · subst same
    rw [if_pos rfl]
    cases known : t.get? key with
    | none => exact known
    | some value => exact (get?_insert ..).trans (if_pos rfl)
  · rw [if_neg same]
    cases t.get? key with
    | none => rfl
    | some value => exact (get?_insert ..).trans (if_neg same)

theorem get?_erase (t : Table κ ν) (key other : κ) :
    (t.erase key).get? other = if key = other then none else t.get? other :=
  lookup_filter key other t.entries

end Table

end Conduit

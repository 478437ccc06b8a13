/-
# Words of a view

What a view shows, word by word. `word` reads a view without the index check of
`load`, `put` writes one without that of `store`, and `Holds` says that a view
lies inside its block, which is what makes the checked operations succeed
(`load_eq`, `store_eq`, `storeAll_eq`, `loadAll_eq`).

A write changes the words it names and no other, in whichever view they are
looked at (`word_put`, `word_putAll_outside`), so views that are `Apart` never see
each other's writes.
-/

import Conduit.Memory
import Mathlib.Tactic.Common

namespace Conduit

/-- Two views that show no word in common. -/
def View.Apart (v w : View) : Prop :=
  v.block ≠ w.block ∨ v.start + v.words ≤ w.start ∨ w.start + w.words ≤ v.start

theorem View.Apart.symm {v w : View} (h : v.Apart w) : w.Apart v := by
  rcases h with h | h | h
  · exact .inl (Ne.symm h)
  · exact .inr (.inr h)
  · exact .inr (.inl h)

namespace Memory

variable {m : Memory} {v w : View}

/-- The words of the block that a view is a part of. -/
def blockOf (m : Memory) (v : View) : Array UInt64 := m.blocks.getD v.block #[]

/-- The word at an index of a view, and zero where there is none. -/
def word (m : Memory) (v : View) (i : Nat) : UInt64 := (m.blockOf v).getD (v.start + i) 0

/-- The view lies inside its block. -/
def Holds (m : Memory) (v : View) : Prop := v.start + v.words ≤ (m.blockOf v).size

/-- The memory with one word of a view replaced. -/
def put (m : Memory) (v : View) (i : Nat) (x : UInt64) : Memory :=
  { m with blocks := m.blocks.modify v.block (·.setIfInBounds (v.start + i) x) }

/-- The memory with the words from an index of a view on replaced. -/
def putAll (m : Memory) (v : View) (i : Nat) : List UInt64 → Memory
  | [] => m
  | x :: rest => (m.put v i x).putAll v (i + 1) rest

/-! ### One word -/

theorem block_eq_some (held : m.Holds v) {i : Nat} (hi : i < v.words) :
    m.blocks[v.block]? = some (m.blockOf v) := by
  unfold Holds blockOf at held
  rw [Array.getD_eq_getD_getElem?] at held
  cases h : m.blocks[v.block]? with
  | none =>
      simp only [h, Option.getD_none, List.size_toArray, List.length_nil] at held
      omega
  | some block => rw [blockOf, Array.getD_eq_getD_getElem?, h, Option.getD_some]

theorem load_eq (held : m.Holds v) {i : Nat} (hi : i < v.words) :
    m.load v i = .ok (m.word v i) := by
  have inside : v.start + i < (m.blockOf v).size := by
    unfold Holds at held
    omega
  rw [load, if_pos hi, block_eq_some held hi]
  simp only [Array.getElem?_eq_getElem inside]
  rw [word, Array.getD_eq_getD_getElem?, Array.getElem?_eq_getElem inside, Option.getD_some]

theorem store_eq (held : m.Holds v) {i : Nat} (hi : i < v.words) (x : UInt64) :
    m.store v i x = .ok (m.put v i x) := by
  have inside : v.start + i < (m.blocks.getD v.block #[]).size := by
    unfold Holds blockOf at held
    omega
  rw [store, if_pos hi, if_pos inside, put]

theorem blockOf_put (m : Memory) (v w : View) (i : Nat) (x : UInt64) :
    (m.put v i x).blockOf w =
      if v.block = w.block then (m.blockOf w).setIfInBounds (v.start + i) x else m.blockOf w := by
  simp only [blockOf, put, Array.getD_eq_getD_getElem?, Array.getElem?_modify]
  by_cases same : v.block = w.block
  · rw [if_pos same, if_pos same]
    cases m.blocks[w.block]? with
    | none => rfl
    | some block => rfl
  · rw [if_neg same, if_neg same]

/-- Writing moves no view. -/
theorem Holds.put (held : m.Holds w) (v : View) (i : Nat) (x : UInt64) : (m.put v i x).Holds w := by
  unfold Holds at held ⊢
  rw [blockOf_put]
  split
  · rwa [Array.size_setIfInBounds]
  · exact held

/-- A word that is written is read back; every other word stays. -/
theorem word_put (held : m.Holds v) {i : Nat} (hi : i < v.words) (w : View) (j : Nat)
    (x : UInt64) : (m.put v i x).word w j =
      if v.block = w.block ∧ v.start + i = w.start + j then x else m.word w j := by
  rw [word, blockOf_put]
  by_cases same : v.block = w.block
  · have inside : v.start + i < (m.blockOf w).size := by
      unfold Holds blockOf at held
      rw [same] at held
      unfold blockOf
      omega
    simp only [same, if_true, true_and, Array.getD_eq_getD_getElem?,
      Array.getElem?_setIfInBounds, inside]
    split
    · rfl
    · rw [word, Array.getD_eq_getD_getElem?]
  · rw [if_neg same, if_neg (fun h => same h.1), word]

/-! ### Runs of words -/

theorem Holds.putAll (held : m.Holds w) (v : View) (i : Nat) (xs : List UInt64) :
    (m.putAll v i xs).Holds w := by
  induction xs generalizing m i with
  | nil => exact held
  | cons x xs ih => exact ih (held.put v i x) (i + 1)

theorem storeAll_eq (held : m.Holds v) {i : Nat} {xs : List UInt64}
    (fits : i + xs.length ≤ v.words) : m.storeAll v i xs = .ok (m.putAll v i xs) := by
  induction xs generalizing m i with
  | nil => rfl
  | cons x xs ih =>
      rw [List.length_cons] at fits
      rw [storeAll, store_eq held (by omega)]
      exact ih (held.put v i x) (by omega)

theorem word_putAll_outside (held : m.Holds v) {i : Nat} {xs : List UInt64}
    (fits : i + xs.length ≤ v.words) {w : View} {j : Nat}
    (outside : v.block ≠ w.block ∨ w.start + j < v.start + i ∨
      v.start + i + xs.length ≤ w.start + j) :
    (m.putAll v i xs).word w j = m.word w j := by
  induction xs generalizing m i with
  | nil => rfl
  | cons x xs ih =>
      rw [List.length_cons] at fits outside
      rw [putAll, ih (held.put v i x) (by omega) (by omega), word_put held (by omega),
        if_neg (by omega)]

theorem word_putAll_inside (held : m.Holds v) {i : Nat} {xs : List UInt64}
    (fits : i + xs.length ≤ v.words) {k : Nat} (hk : k < xs.length) :
    (m.putAll v i xs).word v (i + k) = xs[k] := by
  induction xs generalizing m i k with
  | nil => exact absurd hk (Nat.not_lt_zero k)
  | cons x xs ih =>
      rw [List.length_cons] at fits hk
      have held' := held.put v i x
      rw [putAll]
      cases k with
      | zero =>
          rw [word_putAll_outside held' (by omega) (by omega), word_put held (by omega),
            if_pos ⟨rfl, by omega⟩]
          rfl
      | succ k =>
          have shifted : i + (k + 1) = i + 1 + k := by omega
          rw [shifted, ih held' (by omega) (by omega)]
          rfl

theorem loadAll_eq (held : m.Holds v) {i count : Nat} (fits : i + count ≤ v.words) :
    m.loadAll v i count = .ok ((List.range count).map fun k => m.word v (i + k)) := by
  induction count generalizing i with
  | zero => rfl
  | succ count ih =>
      rw [loadAll, load_eq held (by omega)]
      simp only [bind, Except.bind]
      rw [ih (by omega)]
      simp only [pure, Except.pure, List.range_succ_eq_map, List.map_cons, List.map_map,
        Nat.add_zero]
      congr 2
      apply List.map_congr_left
      intro k _
      exact congrArg (m.word v) (by omega)

/-! ### What a memory keeps -/

/-- No block is lost, and every view that lies inside its block still does. -/
structure Grows (m m' : Memory) : Prop where
  size : m.blocks.size ≤ m'.blocks.size
  holds : ∀ v, m.Holds v → m'.Holds v

theorem Grows.refl (m : Memory) : m.Grows m := ⟨Nat.le_refl _, fun _ held => held⟩

theorem Grows.trans {m m' m'' : Memory} (first : m.Grows m') (later : m'.Grows m'') :
    m.Grows m'' :=
  ⟨Nat.le_trans first.size later.size, fun v held => later.holds v (first.holds v held)⟩

theorem grows_put (m : Memory) (v : View) (i : Nat) (x : UInt64) : m.Grows (m.put v i x) :=
  ⟨Nat.le_of_eq Array.size_modify.symm, fun _ held => held.put v i x⟩

/-! ### Views apart -/

theorem word_put_apart (held : m.Holds v) {i : Nat} (hi : i < v.words) (x : UInt64)
    (apart : v.Apart w) {j : Nat} (hj : j < w.words) : (m.put v i x).word w j = m.word w j := by
  rw [word_put held hi, if_neg]
  rintro ⟨same, place⟩
  rcases apart with h | h | h
  · exact h same
  · omega
  · omega

theorem word_putAll_apart (held : m.Holds v) {i : Nat} {xs : List UInt64}
    (fits : i + xs.length ≤ v.words) (apart : v.Apart w) {j : Nat} (hj : j < w.words) :
    (m.putAll v i xs).word w j = m.word w j := by
  apply word_putAll_outside held fits
  rcases apart with h | h | h
  · exact .inl h
  · exact .inr (.inr (by omega))
  · exact .inr (.inl (by omega))

/-! ### New blocks -/

theorem grows_allocate {bytes : Nat} {v : View} {m' : Memory}
    (allocated : m.allocate bytes = .ok (v, m')) : m.Grows m' := by
  unfold allocate at allocated
  by_cases small : Word.countFor bytes < wordLimit
  · simp only [if_pos small, Except.ok.injEq, Prod.mk.injEq] at allocated
    rw [← allocated.2]
    refine ⟨?_, fun w held => ?_⟩
    · rw [Array.size_push]
      exact Nat.le_succ _
    · unfold Holds blockOf at held ⊢
      simp only [Array.getD_eq_getD_getElem?, Array.getElem?_push] at held ⊢
      by_cases last : w.block = m.blocks.size
      · rw [last, Array.getElem?_eq_none (Nat.le_refl _), Option.getD_none, Array.size_empty] at held
        omega
      · rw [if_neg last]
        exact held
  · simp only [if_neg small] at allocated
    cases allocated

theorem size_allocate {bytes : Nat} {v : View} {m' : Memory}
    (allocated : m.allocate bytes = .ok (v, m')) :
    v.block = m.blocks.size ∧ m'.blocks.size = m.blocks.size + 1 := by
  unfold allocate at allocated
  by_cases small : Word.countFor bytes < wordLimit
  · simp only [if_pos small, Except.ok.injEq, Prod.mk.injEq] at allocated
    rw [← allocated.1, ← allocated.2]
    exact ⟨rfl, Array.size_push _⟩
  · simp only [if_neg small] at allocated
    cases allocated

/-- A new block is shown whole by its view, holds zeros only, and leaves all other
views as they are. -/
theorem allocate_ok {bytes : Nat} {v : View} {m' : Memory}
    (allocated : m.allocate bytes = .ok (v, m')) :
    v = ⟨m.blocks.size, 0, Word.countFor bytes⟩ ∧ m'.Holds v ∧ ∀ i, m'.word v i = 0 := by
  unfold allocate at allocated
  simp only at allocated
  split at allocated
  · injection allocated with allocated
    injection allocated with hview hmem
    subst hview hmem
    refine ⟨rfl, ?_, ?_⟩
    · simp [Holds, blockOf]
    · intro i
      simp [word, blockOf, Array.getD_eq_getD_getElem?, Array.getElem?_replicate]
      split <;> rfl
  · exact absurd allocated (by simp)

end Memory

end Conduit

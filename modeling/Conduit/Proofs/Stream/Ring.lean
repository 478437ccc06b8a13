/-
# A byte ring holds a list

`Ring.toList` is what a ring holds. `toList_write` and `toList_read` are the laws of
the two operations through it: writing appends a prefix of what is offered, reading
takes a prefix of what is held. Positions count from the oldest byte and wrap; as
one byte of the storage is never used, no two of them meet.
-/

import Conduit.Ring
import Mathlib.Data.Nat.ModEq

namespace Conduit

namespace Ring

variable {r : Ring}

/-- The cursors of a ring lie inside its storage. -/
structure Valid (r : Ring) : Prop where
  room : 2 ≤ r.storage.size
  readAt_lt : r.readAt < r.storage.size
  writeAt_lt : r.writeAt < r.storage.size

/-- The distance between two cursors is what leads from one to the other. -/
theorem distance {n start stop k : Nat} (hstart : start < n) (hk : k < n)
    (leads : (start + k) % n = stop) : (stop + n - start) % n = k := by
  by_cases wraps : start + k < n
  · rw [Nat.mod_eq_of_lt wraps] at leads
    have back : stop + n - start = k + n := by omega
    rw [back, Nat.add_mod_right, Nat.mod_eq_of_lt hk]
  · rw [Nat.mod_eq_sub_mod (by omega), Nat.mod_eq_of_lt (by omega)] at leads
    have back : stop + n - start = k := by omega
    rw [back, Nat.mod_eq_of_lt hk]

theorem Valid.size_lt (valid : r.Valid) : r.size < r.storage.size :=
  Nat.mod_lt _ (by have := valid.room; omega)

/-- The next byte goes right behind the bytes that are held. -/
theorem Valid.add_size (valid : r.Valid) : (r.readAt + r.size) % r.storage.size = r.writeAt := by
  have hread := valid.readAt_lt
  have hwrite := valid.writeAt_lt
  unfold size
  by_cases wraps : r.readAt ≤ r.writeAt
  · have ahead : r.writeAt + r.storage.size - r.readAt =
        r.writeAt - r.readAt + r.storage.size := by omega
    rw [ahead, Nat.add_mod_right, Nat.add_mod_mod, Nat.add_sub_of_le wraps,
      Nat.mod_eq_of_lt hwrite]
  · have ahead : r.readAt + (r.writeAt + r.storage.size - r.readAt) =
        r.writeAt + r.storage.size := by omega
    rw [Nat.add_mod_mod, ahead, Nat.add_mod_right, Nat.mod_eq_of_lt hwrite]

theorem length_toList (r : Ring) : r.toList.length = r.size := by
  rw [toList, List.length_map, List.length_range]

/-! ### Writing -/

theorem size_fill (storage : Array UInt8) (position : Nat) (bytes : List UInt8) :
    (fill storage position bytes).size = storage.size := by
  induction bytes generalizing storage position with
  | nil => rfl
  | cons b bytes ih => rw [fill, ih, Array.size_setIfInBounds]

/-- A position that no written byte wraps to keeps its byte. -/
theorem getD_fill_outside {storage : Array UInt8} {position k : Nat} {bytes : List UInt8}
    (outside : ∀ j < bytes.length, (position + j) % storage.size ≠ k) :
    (fill storage position bytes).getD k 0 = storage.getD k 0 := by
  induction bytes generalizing storage position with
  | nil => rfl
  | cons b bytes ih =>
      rw [fill, ih]
      · have first : position % storage.size ≠ k := outside 0 (Nat.zero_lt_succ _)
        simp only [Array.getD_eq_getD_getElem?, Array.getElem?_setIfInBounds_ne first]
      · intro j hj
        rw [Array.size_setIfInBounds, Nat.add_right_comm, Nat.add_assoc]
        exact outside (j + 1) (Nat.succ_lt_succ hj)

/-- Each byte is written where it wraps to, unless there are more than fit. -/
theorem getD_fill_inside (storage : Array UInt8) (position : Nat) {j : Nat} {bytes : List UInt8}
    (fits : bytes.length ≤ storage.size) (hj : j < bytes.length) :
    (fill storage position bytes).getD ((position + j) % storage.size) 0 = bytes[j] := by
  induction bytes generalizing storage position j with
  | nil => exact absurd hj (Nat.not_lt_zero j)
  | cons b bytes ih =>
      rw [List.length_cons] at fits hj
      cases j with
      | zero =>
          have inside : position % storage.size < storage.size := Nat.mod_lt _ (by omega)
          rw [fill, getD_fill_outside]
          · simp only [Nat.add_zero, Array.getD_eq_getD_getElem?,
              Array.getElem?_setIfInBounds_self_of_lt inside, Option.getD_some,
              List.getElem_cons_zero]
          · intro i hi meets
            rw [Array.size_setIfInBounds, Nat.add_assoc] at meets
            have same := Nat.ModEq.add_left_cancel' position meets
            have := Nat.ModEq.eq_of_lt_of_lt same (by omega) (by omega)
            omega
      | succ j =>
          have later := ih (storage.setIfInBounds (position % storage.size) b) (position + 1)
            (by rw [Array.size_setIfInBounds]; omega) (show j < bytes.length by omega)
          rw [Array.size_setIfInBounds, Nat.add_assoc, Nat.add_comm 1] at later
          rw [fill, List.getElem_cons_succ]
          exact later

theorem Valid.after_write (valid : r.Valid) (data : List UInt8) : (r.write data).2.Valid := by
  have room := valid.room
  constructor
  · simp only [write, size_fill]
    exact room
  · simp only [write, size_fill]
    exact valid.readAt_lt
  · simp only [write, size_fill]
    exact Nat.mod_lt _ (by omega)

/-- Writing appends as many bytes as it says. -/
theorem toList_write (valid : r.Valid) (data : List UInt8) :
    (r.write data).2.toList = r.toList ++ data.take (r.write data).1 := by
  have room := valid.room
  have hsize := valid.size_lt
  have ends := valid.add_size
  have count_le : (r.write data).1 ≤ r.free := Nat.min_le_right _ _
  have fits : r.size + (r.write data).1 < r.storage.size := by
    unfold free capacity at count_le
    omega
  generalize written : (r.write data).1 = count at *
  have length : (data.take count).length = count := by
    rw [List.length_take, ← written]
    exact Nat.min_eq_left (Nat.min_le_left _ _)
  have storage : (r.write data).2.storage = fill r.storage r.writeAt (data.take count) := by
    rw [← written]
    rfl
  have size' : (r.write data).2.size = r.size + count := by
    unfold size
    rw [storage, size_fill]
    apply distance valid.readAt_lt fits
    change _ = (r.writeAt + (r.write data).1) % r.storage.size
    rw [written, ← Nat.add_assoc, ← ends, Nat.mod_add_mod]
  have place : ∀ j, (r.writeAt + j) % r.storage.size = (r.readAt + (r.size + j)) % r.storage.size := by
    intro j
    rw [← ends, Nat.mod_add_mod, Nat.add_assoc]
  apply List.ext_getElem
  · rw [length_toList, size', List.length_append, length_toList, length]
  intro i hi hi'
  rw [length_toList, size'] at hi
  have peek' : (r.write data).2.toList[i] =
      (fill r.storage r.writeAt (data.take count)).getD ((r.readAt + i) % r.storage.size) 0 := by
    simp only [toList, List.getElem_map, List.getElem_range, peek, storage, size_fill]
    rfl
  rw [peek']
  by_cases old : i < r.size
  · rw [List.getElem_append_left (by rw [length_toList]; exact old), getD_fill_outside]
    · simp only [toList, List.getElem_map, List.getElem_range, peek]
    · intro j hj meets
      rw [place] at meets
      have same := Nat.ModEq.add_left_cancel' r.readAt meets
      have := Nat.ModEq.eq_of_lt_of_lt same (by omega) (by omega)
      omega
  · obtain ⟨j, rfl⟩ := Nat.exists_eq_add_of_le (Nat.le_of_not_lt old)
    rw [List.getElem_append_right (by rw [length_toList]; omega), ← place,
      getD_fill_inside _ _ (by omega) (by omega)]
    simp only [length_toList, Nat.add_sub_cancel_left]

/-! ### Reading -/

theorem Valid.after_read (valid : r.Valid) (limit : Nat) : (r.read limit).2.Valid := by
  have room := valid.room
  exact ⟨room, Nat.mod_lt _ (by omega), valid.writeAt_lt⟩

/-- Reading takes the oldest bytes. -/
theorem toList_read (valid : r.Valid) (limit : Nat) :
    r.toList = (r.read limit).1 ++ (r.read limit).2.toList := by
  have hsize := valid.size_lt
  obtain ⟨left, held⟩ := Nat.exists_eq_add_of_le (Nat.min_le_right limit r.size)
  have size' : (r.read limit).2.size = left := by
    have pos : 0 < r.storage.size := by omega
    have short : left < r.storage.size := by omega
    apply distance (Nat.mod_lt _ pos) short
    change ((r.readAt + min limit r.size) % r.storage.size + left) % r.storage.size = r.writeAt
    rw [Nat.mod_add_mod, Nat.add_assoc, ← held]
    exact valid.add_size
  unfold toList
  rw [size', held, List.range_add, List.map_append, List.map_map]
  refine congrArg _ (List.map_congr_left fun i _ => ?_)
  simp only [Function.comp, peek, read, Nat.mod_add_mod, Nat.add_assoc]

end Ring

end Conduit

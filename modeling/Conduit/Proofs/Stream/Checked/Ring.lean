/-
# A byte ring with every step checked

The laws of a ring speak of natural numbers and lists, on which a subtraction stops at zero and
a range that is too long is cut. A program on machine words must not come there: a difference
below zero, a sum beyond a word, a division by zero and a range outside a slice are panics.
`Ring.writeChecked` and `Ring.readChecked` do what a ring does with all of this checked, and
copy in two runs where a range goes round the end of the storage. On a valid ring they are
`write` and `read` (`writeChecked_eq`, `readChecked_eq`), so no check ever fails.
-/

import Conduit.Proofs.Checked
import Conduit.Proofs.Stream.Ring

namespace Conduit

namespace Ring

open Checked

/-! ### The ring -/

/-- How many bytes the ring holds. -/
def sizeChecked (r : Ring) : Except Panic Nat := do
  let ahead ← plus r.writeAt r.storage.size
  let distance ← minus ahead r.readAt
  modulo distance r.storage.size

/-- How many bytes can be written. -/
def freeChecked (r : Ring) : Except Panic Nat := do
  let capacity ← minus r.storage.size 1
  let size ← r.sizeChecked
  minus capacity size

/-- Appends as many of the bytes as fit: up to the end of the storage, and the others at its
start. -/
def writeChecked (r : Ring) (data : List UInt8) : Except Panic (Nat × Ring) := do
  let count := min data.length (← r.freeChecked)
  let first := min count (← minus r.storage.size r.writeAt)
  let storage ← paste r.storage.toList r.writeAt (← plus r.writeAt first) (← slice data 0 first)
  let storage ← paste storage 0 (← minus count first) (← slice data first count)
  let writeAt ← modulo (← plus r.writeAt count) r.storage.size
  return (count, { storage := storage.toArray, readAt := r.readAt, writeAt })

/-- Moves bytes into a buffer, as many as are held and it has room for: up to the end of the
storage, and the others from its start. -/
def readChecked (r : Ring) (out : List UInt8) : Except Panic (Nat × List UInt8 × Ring) := do
  let count := min out.length (← r.sizeChecked)
  let first := min count (← minus r.storage.size r.readAt)
  let out ← paste out 0 first (← slice r.storage.toList r.readAt (← plus r.readAt first))
  let out ← paste out first count (← slice r.storage.toList 0 (← minus count first))
  let readAt ← modulo (← plus r.readAt count) r.storage.size
  return (count, out, { r with readAt })

/-! ### Going round in two runs -/

theorem fill_append (storage : Array UInt8) (position : Nat) (first second : List UInt8) :
    fill storage position (first ++ second) =
      fill (fill storage position first) (position + first.length) second := by
  induction first generalizing storage position with
  | nil => rfl
  | cons b first ih =>
      rw [List.cons_append, fill, fill, ih, List.length_cons, Nat.add_assoc, Nat.add_comm 1]

/-- One round further is the same place. -/
theorem fill_round (storage : Array UInt8) (position : Nat) (bytes : List UInt8) :
    fill storage (position + storage.size) bytes = fill storage position bytes := by
  induction bytes generalizing storage position with
  | nil => rfl
  | cons b bytes ih =>
      have next := ih (storage.setIfInBounds (position % storage.size) b) (position + 1)
      rw [Array.size_setIfInBounds] at next
      rw [fill, fill, Nat.add_mod_right, Nat.add_right_comm, next]

/-- A run that does not reach the end of the storage replaces a range of it. -/
theorem toList_fill {storage : Array UInt8} {position : Nat} {bytes : List UInt8}
    (fits : position + bytes.length ≤ storage.size) :
    (fill storage position bytes).toList = storage.toList.take position ++ bytes ++
      storage.toList.drop (position + bytes.length) := by
  induction bytes generalizing storage position with
  | nil => simp [fill]
  | cons b bytes ih =>
      rw [List.length_cons] at fits
      let replaced := storage.setIfInBounds (position % storage.size) b
      have size : replaced.size = storage.size := Array.size_setIfInBounds
      have next : (fill replaced (position + 1) bytes).toList = _ := ih (by omega)
      have inside : position < storage.toList.length := by
        rw [Array.length_toList]
        omega
      have prior : (storage.toList.take position).length = position := by
        rw [List.length_take]
        omega
      have listed : replaced.toList =
          storage.toList.take position ++ b :: storage.toList.drop (position + 1) := by
        rw [Array.toList_setIfInBounds, Nat.mod_eq_of_lt (by omega),
          List.set_eq_take_append_cons_drop, if_pos inside]
      have kept : replaced.toList.take (position + 1) = storage.toList.take position ++ [b] := by
        rw [listed, List.take_append, prior, Nat.add_sub_cancel_left, List.take_succ_cons,
          List.take_zero, List.take_of_length_le (by omega)]
      have others : replaced.toList.drop (position + 1 + bytes.length) =
          storage.toList.drop (position + (bytes.length + 1)) := by
        have past : position + 1 + bytes.length - position = bytes.length + 1 := by omega
        rw [listed, List.drop_append, prior, past, List.drop_of_length_le (by omega),
          List.nil_append, List.drop_succ_cons, List.drop_drop]
        congr 1
        omega
      rw [fill, next, kept, others, List.length_cons]
      simp only [List.append_assoc, List.cons_append, List.nil_append]

/-- What is offered goes up to the end of the storage, and what is left of it to its start. -/
theorem toList_fill_round {storage : Array UInt8} {position first : Nat} {bytes : List UInt8}
    (inside : position ≤ storage.size) (cut : first = min bytes.length (storage.size - position)) :
    (fill storage position bytes).toList =
      (fill (fill storage position (bytes.take first)) 0 (bytes.drop first)).toList := by
  have joined := fill_append storage position (bytes.take first) (bytes.drop first)
  rw [List.take_append_drop] at joined
  rw [joined]
  rcases Nat.le_total bytes.length (storage.size - position) with fits | wraps
  · have none : bytes.drop first = [] := List.drop_of_length_le (by omega)
    rw [none]
    rfl
  · have length : (bytes.take first).length = first := by
      rw [List.length_take]
      omega
    have stop : position + first = 0 + (fill storage position (bytes.take first)).size := by
      rw [size_fill]
      omega
    rw [length, stop, fill_round]

theorem paste_fill {storage : Array UInt8} {position stop : Nat} {bytes : List UInt8}
    (length : position + bytes.length = stop) (inside : stop ≤ storage.size) :
    paste storage.toList position stop bytes = .ok (fill storage position bytes).toList := by
  have listed : stop ≤ storage.toList.length := by
    rw [Array.length_toList]
    exact inside
  rw [paste_ok listed length, toList_fill (length ▸ inside), length]

/-- A range of the storage, byte by byte. -/
theorem slice_storage {storage : Array UInt8} {start count : Nat}
    (inside : start + count ≤ storage.size) : slice storage.toList start (start + count) =
      .ok ((List.range count).map fun i => storage.getD (start + i) 0) := by
  rw [slice_ok (Nat.le_add_right _ _) (by rw [Array.length_toList]; exact inside)]
  congr 1
  apply List.ext_getElem
  · rw [List.length_drop, List.length_take, List.length_map, List.length_range,
      Array.length_toList]
    omega
  · intro i hi hi'
    rw [List.length_map, List.length_range] at hi'
    have here : start + i < storage.size := by omega
    rw [List.getElem_drop, List.getElem_take, List.getElem_map, List.getElem_range,
      Array.getElem_toList, Array.getD_eq_getD_getElem?, Array.getElem?_eq_getElem here,
      Option.getD_some]

/-! ### No check fails -/

variable {r : Ring}

/-- A valid ring of a length that can be allocated. -/
structure Sized (r : Ring) : Prop extends Valid r where
  short : r.storage.size < lengthLimit

theorem Sized.after_write (sized : r.Sized) (data : List UInt8) : (r.write data).2.Sized :=
  { sized.toValid.after_write data with
    short := by
      simp only [write, size_fill]
      exact sized.short }

theorem Sized.after_read (sized : r.Sized) (limit : Nat) : (r.read limit).2.Sized :=
  { sized.toValid.after_read limit with short := sized.short }

theorem sizeChecked_eq (sized : r.Sized) : r.sizeChecked = .ok r.size := by
  have short := sized.short
  have write := sized.writeAt_lt
  have read := sized.readAt_lt
  have ahead : plus r.writeAt r.storage.size = .ok (r.writeAt + r.storage.size) :=
    plus_ok (by unfold lengthLimit at short; unfold limit; omega)
  have distance : minus (r.writeAt + r.storage.size) r.readAt =
      .ok (r.writeAt + r.storage.size - r.readAt) := minus_ok (by omega)
  have rest : modulo (r.writeAt + r.storage.size - r.readAt) r.storage.size = .ok r.size :=
    modulo_ok (by omega)
  simp only [sizeChecked, ahead, distance, rest, bind, Except.bind]

theorem freeChecked_eq (sized : r.Sized) : r.freeChecked = .ok r.free := by
  have size := sized.size_lt
  have whole : minus r.storage.size 1 = .ok r.capacity := minus_ok (by omega)
  have free : minus r.capacity r.size = .ok r.free := minus_ok (by unfold capacity; omega)
  simp only [freeChecked, whole, sizeChecked_eq sized, free, bind, Except.bind]

/-- Going round by `count` bytes from a place of the storage on, `first` of them up to its end. -/
structure Round (size position count first : Nat) : Prop where
  behind : minus size position = .ok (size - position)
  stop : plus position first = .ok (position + first)
  rest : minus count first = .ok (count - first)
  last : plus position count = .ok (position + count)
  wrapped : modulo (position + count) size = .ok ((position + count) % size)
  first_le : first ≤ count
  inside : position + first ≤ size
  again : count - first ≤ position

/-- The place and the number are such that no check fails. -/
theorem round_of_lt {size position count : Nat} (short : size < lengthLimit)
    (place : position < size) (below : count < size) :
    Round size position count (min count (size - position)) where
  behind := minus_ok (by omega)
  stop := plus_ok (by unfold lengthLimit at short; unfold limit; omega)
  rest := minus_ok (by omega)
  last := plus_ok (by unfold lengthLimit at short; unfold limit; omega)
  wrapped := modulo_ok (by omega)
  first_le := Nat.min_le_left _ _
  inside := by omega
  again := by omega

/-- Writing never leaves the storage nor what is offered, and counts without overflow. -/
theorem writeChecked_eq (sized : r.Sized) (data : List UInt8) :
    r.writeChecked data = .ok (r.write data) := by
  have size := sized.size_lt
  have free : r.free ≤ r.storage.size - 1 := Nat.sub_le _ _
  let count := min data.length r.free
  let first := min count (r.storage.size - r.writeAt)
  have round : Round r.storage.size r.writeAt count first :=
    round_of_lt sized.short sized.writeAt_lt (by omega)
  have offered : count ≤ data.length := Nat.min_le_left _ _
  have counted : (data.take count).length = count := List.length_take_of_le offered
  have run : ((data.take count).take first).length = first :=
    List.length_take_of_le (counted.symm ▸ round.first_le)
  have head : slice data 0 first = .ok ((data.take count).take first) := by
    rw [slice_ok (Nat.zero_le _) (Nat.le_trans round.first_le offered), List.drop_zero,
      List.take_take, Nat.min_eq_left round.first_le]
  have once : paste r.storage.toList r.writeAt (r.writeAt + first) ((data.take count).take first) =
      .ok (fill r.storage r.writeAt ((data.take count).take first)).toList :=
    paste_fill (by rw [run]) round.inside
  have tail : slice data first count = .ok ((data.take count).drop first) :=
    slice_ok round.first_le offered
  have again : paste (fill r.storage r.writeAt ((data.take count).take first)).toList 0
      (count - first) ((data.take count).drop first) =
        .ok (fill (fill r.storage r.writeAt ((data.take count).take first)) 0
          ((data.take count).drop first)).toList := by
    refine paste_fill ?_ ?_
    · rw [List.length_drop, counted, Nat.zero_add]
    · rw [size_fill]
      exact Nat.le_trans round.again (Nat.le_of_lt sized.writeAt_lt)
  have cut : first = min (data.take count).length (r.storage.size - r.writeAt) := by rw [counted]
  have joined := toList_fill_round (Nat.le_of_lt sized.writeAt_lt) cut
  simp only [writeChecked, freeChecked_eq sized, bind, Except.bind]
  simp only [show min data.length r.free = count from rfl, round.behind]
  simp only [show min count (r.storage.size - r.writeAt) = first from rfl, round.stop, head, once,
    round.rest, tail, again, round.last, round.wrapped, ← joined]
  rfl

/-- What is read going round is what lies up to the end of the storage, and then from its start. -/
theorem map_peek_round {count first : Nat} (round : Round r.storage.size r.readAt count first)
    (place : r.readAt < r.storage.size) (cut : first = min count (r.storage.size - r.readAt)) :
    (List.range count).map r.peek =
      ((List.range first).map fun i => r.storage.getD (r.readAt + i) 0) ++
        (List.range (count - first)).map fun i => r.storage.getD (0 + i) 0 := by
  have inside := round.inside
  have again := round.again
  have split : count = first + (count - first) := (Nat.add_sub_cancel' round.first_le).symm
  have before : (List.range first).map r.peek =
      (List.range first).map fun i => r.storage.getD (r.readAt + i) 0 := by
    refine List.map_congr_left fun i mem => ?_
    rw [List.mem_range] at mem
    unfold peek
    rw [Nat.mod_eq_of_lt (by omega)]
  have after : (List.range (count - first)).map (r.peek ∘ (first + ·)) =
      (List.range (count - first)).map fun i => r.storage.getD (0 + i) 0 := by
    refine List.map_congr_left fun i mem => ?_
    rw [List.mem_range] at mem
    have back : r.readAt + (first + i) = i + r.storage.size := by omega
    change r.storage.getD ((r.readAt + (first + i)) % r.storage.size) 0 = _
    rw [back, Nat.add_mod_right, Nat.mod_eq_of_lt (by omega), Nat.zero_add]
  rw [← before, ← after]
  conv_lhs => rw [split]
  rw [List.range_add, List.map_append, List.map_map]

/-- Two runs behind each other replace the front of a buffer. -/
theorem paste_paste {out early late : List UInt8} {first count : Nat} (inside : count ≤ out.length)
    (starts : early.length = first) (ends : first + late.length = count) :
    paste out 0 first early = .ok (early ++ out.drop first) ∧
      paste (early ++ out.drop first) first count late = .ok (early ++ late ++ out.drop count) := by
  have held : (early ++ out.drop first).length = out.length := by
    rw [List.length_append, starts, List.length_drop]
    omega
  have kept : (early ++ out.drop first).take first = early := by
    rw [← starts, List.take_left]
  have others : (early ++ out.drop first).drop count = out.drop count := by
    rw [List.drop_append, starts, List.drop_drop, List.drop_of_length_le (by omega),
      List.nil_append]
    congr 1
    omega
  constructor
  · rw [paste_ok (by omega) (by omega), List.take_zero, List.nil_append]
  · rw [paste_ok (by omega) ends, kept, others]

/-- Reading never leaves the storage nor the buffer, and counts without overflow. What lies
in the buffer behind the bytes that were read stays. -/
theorem readChecked_eq (sized : r.Sized) (out : List UInt8) :
    r.readChecked out = .ok ((r.read out.length).1.length,
      (r.read out.length).1 ++ out.drop (r.read out.length).1.length, (r.read out.length).2) := by
  have size := sized.size_lt
  let count := min out.length r.size
  let first := min count (r.storage.size - r.readAt)
  have round : Round r.storage.size r.readAt count first :=
    round_of_lt sized.short sized.readAt_lt (by omega)
  let early := (List.range first).map fun i => r.storage.getD (r.readAt + i) 0
  let late := (List.range (count - first)).map fun i => r.storage.getD (0 + i) 0
  have early_length : early.length = first := by
    rw [List.length_map, List.length_range]
  have late_length : first + late.length = count := by
    rw [List.length_map, List.length_range]
    exact Nat.add_sub_cancel' round.first_le
  have bytes : (r.read out.length).1 = early ++ late := map_peek_round round sized.readAt_lt rfl
  have length : (r.read out.length).1.length = count := by
    rw [bytes, List.length_append, early_length, late_length]
  have head : slice r.storage.toList r.readAt (r.readAt + first) = .ok early :=
    slice_storage round.inside
  have tail : slice r.storage.toList 0 (count - first) = .ok late := by
    have whole : slice r.storage.toList 0 (0 + (count - first)) = .ok late :=
      slice_storage (by have := round.again; have := sized.readAt_lt; omega)
    rwa [Nat.zero_add] at whole
  have room : count ≤ out.length := Nat.min_le_left _ _
  obtain ⟨once, again⟩ := paste_paste room early_length late_length
  rw [length, bytes]
  simp only [readChecked, sizeChecked_eq sized, bind, Except.bind]
  simp only [show min out.length r.size = count from rfl, round.behind]
  simp only [show min count (r.storage.size - r.readAt) = first from rfl, round.stop, head, once,
    round.rest, tail, again, round.last, round.wrapped]
  rfl

end Ring

end Conduit

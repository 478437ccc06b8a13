/-
# Windows, windows of windows, and halves

A view is cut at multiples of the word size. `View.window_eq` and `View.splitAt_eq` say exactly
when and where, and from this follows what becomes of a zeroed block that is cut again and again
(`View.windows_nest`): every view lies inside the one it was made out of and inside the block, a
window of a window is a window, and to use a part of a view is to use the bytes at its place in
the view. The halves of a view are all of it and share nothing, so that whatever is done through
the one half, or parts of it, the other shows what it showed before (`View.Halves`).
-/

import Conduit.Proofs.Memory.Flat

namespace Conduit

open View (Use Answer)

/-! ### Cutting -/

/-- A way to make a view out of another. -/
inductive View.Cutting where
  | window (offset length : Nat)
  /-- The half before a byte. -/
  | below (mid : Nat)
  /-- The half from a byte on. -/
  | above (mid : Nat)

namespace View

/-- The view that is made out of a view. -/
def cut (v : View) : Cutting → Option View
  | .window offset length => v.window offset length
  | .below mid => (v.splitAt mid).map Prod.fst
  | .above mid => (v.splitAt mid).map Prod.snd

/-- The view that is made by one cut after the other. -/
def cutAll (v : View) : List Cutting → Option View
  | [] => some v
  | step :: rest => do (← v.cut step).cutAll rest

/-- The offset of a view in a view that it lies inside. -/
def placeIn (w v : View) : Nat := (w.start - v.start) * Word.size

variable {u v w low high frame : View} {offset length mid : Nat}

theorem Cut.trans (first : frame.Cut v) (later : v.Cut w) : frame.Cut w := by
  induction later with
  | whole => exact first
  | window _ made ih => exact ih.window made

theorem cut_cut {step : Cutting} (made : v.cut step = some w) : v.Cut w := by
  cases step with
  | window offset length => exact .window .whole made
  | below mid =>
      obtain ⟨⟨low, high⟩, split, rfl⟩ := Option.map_eq_some_iff.mp made
      exact (Cut.whole.splitAt split).1
  | above mid =>
      obtain ⟨⟨low, high⟩, split, rfl⟩ := Option.map_eq_some_iff.mp made
      exact (Cut.whole.splitAt split).2

theorem cut_cutAll {steps : List Cutting} (made : v.cutAll steps = some w) : v.Cut w := by
  induction steps generalizing v with
  | nil =>
      injection made with made
      exact made ▸ .whole
  | cons step rest ih =>
      obtain ⟨u, first, later⟩ := Option.bind_eq_some_iff.mp made
      exact (cut_cut first).trans (ih later)

/-- When there is a window, and where. -/
theorem window_eq (v : View) (offset length : Nat) : v.window offset length =
    if 8 ∣ offset ∧ 8 ∣ length ∧ offset + length ≤ v.bytes then
      some ⟨v.block, v.start + offset / 8, length / 8⟩
    else none := by
  unfold window bytes Word.size
  by_cases fits : 8 ∣ offset ∧ 8 ∣ length ∧ offset + length ≤ v.words * 8
  · rw [if_pos fits, if_neg (by omega), if_neg (by omega)]
  · rw [if_neg fits]
    by_cases unaligned : offset % 8 ≠ 0 ∨ length % 8 ≠ 0
    · rw [if_pos unaligned]
    · rw [if_neg unaligned, if_pos (by omega)]

/-- When a view can be split, and into what. -/
theorem splitAt_eq (v : View) (mid : Nat) : v.splitAt mid =
    if 8 ∣ mid ∧ mid ≤ v.bytes then
      some (⟨v.block, v.start, mid / 8⟩, ⟨v.block, v.start + mid / 8, v.words - mid / 8⟩)
    else none := by
  have whole : v.bytes = v.words * 8 := rfl
  unfold splitAt
  rw [window_eq, window_eq]
  by_cases fits : 8 ∣ mid ∧ mid ≤ v.bytes
  · have count : (v.bytes - mid) / 8 = v.words - mid / 8 := by omega
    rw [if_pos fits, if_pos (by omega), if_pos (by omega)]
    simp only [bind, Option.bind, if_pos fits.2, count]
    rfl
  · rw [if_neg fits, if_neg (by omega)]
    rfl

theorem window_made (made : v.window offset length = some w) :
    (8 ∣ offset ∧ 8 ∣ length ∧ offset + length ≤ v.bytes) ∧
      w = ⟨v.block, v.start + offset / 8, length / 8⟩ := by
  rw [window_eq, Option.ite_none_right_eq_some] at made
  obtain ⟨fits, made⟩ := made
  exact ⟨fits, (Option.some.inj made).symm⟩

/-- A window is at its offset and has its length. -/
theorem place_window (made : v.window offset length = some w) :
    w.placeIn v = offset ∧ w.bytes = length := by
  obtain ⟨⟨_, _, _⟩, rfl⟩ := window_made made
  simp only [placeIn, bytes, Word.size]
  omega

theorem splitAt_apart (split : v.splitAt mid = some (low, high)) : low.Apart high := by
  rw [splitAt_eq, Option.ite_none_right_eq_some] at split
  obtain ⟨-, split⟩ := split
  cases split
  exact .inr (.inl (Nat.le_refl _))

/-- A window of a window is a window, at the sum of the offsets. -/
theorem window_window (made : v.window offset length = some w) (offset' length' : Nat) :
    w.window offset' length' =
      if offset' + length' ≤ length then v.window (offset + offset') length' else none := by
  have size := (place_window made).2
  obtain ⟨fits, rfl⟩ := window_made made
  rw [window_eq, window_eq, size]
  by_cases inside : 8 ∣ offset' ∧ 8 ∣ length' ∧ offset' + length' ≤ length
  · have start : v.start + offset / 8 + offset' / 8 = v.start + (offset + offset') / 8 := by omega
    rw [if_pos inside, if_pos inside.2.2, if_pos (by omega), start]
  · rw [if_neg inside]
    by_cases short : offset' + length' ≤ length
    · rw [if_pos short, if_neg (by omega)]
    · rw [if_neg short]

end View

/-! ### Parts of a view -/

/-- One use of a range of the bytes. -/
def Flat.usePart (bytes : List UInt8) (offset length : Nat) (u : Use) :
    Except Panic (Answer × List UInt8) := do
  let (answer, part) ← Flat.use ((bytes.drop offset).take length) u
  return (answer, overwrite bytes offset part)

namespace Memory

/-- One use of one of several views. -/
def useOne (m : Memory) (a : View × Use) : Except Panic (Answer × Memory) := m.use a.1 a.2

variable {m m' : Memory} {u v w low high : View} {offset length mid : Nat}

theorem byte_part (part : w.Inside v) (k : Nat) : m.byte w k = m.byte v (w.placeIn v + k) := by
  unfold byte View.placeIn Word.size
  rw [word_part part, show ((w.start - v.start) * 8 + k) / 8 = w.start - v.start + k / 8 by omega,
    show ((w.start - v.start) * 8 + k) % 8 = k % 8 by omega]

theorem place_fits (part : w.Inside v) : w.placeIn v + w.bytes ≤ v.bytes := by
  have start := part.start
  have stop := part.stop
  unfold View.placeIn View.bytes Word.size
  omega

/-- A part shows the bytes at its place. -/
theorem shown_part (part : w.Inside v) :
    m.shown w = ((m.shown v).drop (w.placeIn v)).take w.bytes := by
  rw [shown_slice (place_fits part)]
  exact List.map_congr_left fun k _ => byte_part part k

theorem shown_window (made : v.window offset length = some w) :
    m.shown w = ((m.shown v).drop offset).take length := by
  have part := (View.Cut.whole.window made).inside
  obtain ⟨place, size⟩ := View.place_window made
  rw [shown_part part, place, size]

/-- What changes in a part changes at its place. -/
theorem shown_of_part (only : m.OnlyWithin m' w 0 w.words) (part : w.Inside v) :
    m'.shown v = Flat.overwrite (m.shown v) (w.placeIn v) (m'.shown w) := by
  have start := part.start
  refine shown_overwrite ?_ (fun k hk => ?_) (fun k outside => ?_)
  · rw [length_shown]
    exact place_fits part
  · rw [getElem_shown hk]
    exact (byte_part part k).symm
  · rw [length_shown] at outside
    unfold View.placeIn View.bytes Word.size at outside
    have other : v.start + k / Word.size < w.start + 0 ∨
        w.start + 0 + w.words ≤ v.start + k / Word.size := by
      unfold Word.size
      omega
    rw [byte, only.word v (k / Word.size) (.inr other), byte]

theorem shown_apart (only : m.OnlyWithin m' w 0 w.words) (apart : w.Apart u) :
    m'.shown u = m.shown u := by
  refine shown_congr rfl fun k inside => ?_
  have index : k / 8 < u.words := div_lt_words inside
  have other : w.block ≠ u.block ∨ u.start + k / 8 < w.start + 0 ∨
      w.start + 0 + w.words ≤ u.start + k / 8 := by
    rcases apart with block | before | behind
    · exact .inl block
    · exact .inr (.inr (by omega))
    · exact .inr (.inl (by omega))
  rw [byte, only.word u (k / 8) other, byte]

/-- What changes in a part of a view changes in the view. -/
theorem OnlyWithin.part (only : m.OnlyWithin m' w 0 w.words) (part : w.Inside v) :
    m.OnlyWithin m' v 0 v.words where
  blocks := only.blocks
  size := only.size
  word u i outside := by
    have block := part.block
    have start := part.start
    have stop := part.stop
    apply only.word u i
    rcases outside with other | before | behind
    · exact .inl (block ▸ other)
    · exact .inr (.inl (by omega))
    · exact .inr (.inr (by omega))

/-- A use of a part is a use of the bytes at its place. -/
theorem useOne_becomes (held : m.Holds v) (cut : v.Cut w) (u : Use) :
    Refines (m.Becomes v) (m.useOne (w, u))
      (Flat.usePart (m.shown v) (w.placeIn v) w.bytes u) := by
  have part := cut.inside
  have one := use_becomes (held.cut cut) u
  unfold useOne Flat.usePart
  rw [← shown_part part]
  generalize m.use w u = x, Flat.use (m.shown w) u = y at one ⊢
  cases one with
  | panics e => exact .panics e
  | returns becomes =>
      obtain ⟨rfl, only⟩ := becomes
      exact .returns ⟨shown_of_part only part, only.part part⟩

theorem useParts_becomes (held : m.Holds v) {uses : List (View × Use)}
    (parts : ∀ a ∈ uses, v.Cut a.1) :
    Refines (m.Becomes v) (useAll useOne m uses)
      (useAll (fun bytes a => Flat.usePart bytes (a.1.placeIn v) a.1.bytes a.2) (m.shown v)
        uses) := by
  refine run_becomes held fun m' held' a mem => ?_
  exact useOne_becomes held' (parts a mem) a.2

theorem shown_split (split : v.splitAt mid = some (low, high)) :
    m.shown v = m.shown low ++ m.shown high := by
  obtain ⟨first, second⟩ := View.splitAt_ok split
  have rest : ((m.shown v).drop mid).length ≤ v.bytes - mid := by
    rw [List.length_drop, length_shown]
  rw [shown_window first, shown_window second, List.drop_zero, List.take_of_length_le rest,
    List.take_append_drop]

/-- What is done through one of two views that share nothing, or through parts of it, is seen
there and not in the other. -/
theorem useParts_apart (held : m.Holds w) (apart : w.Apart u) {uses : List (View × Use)}
    (parts : ∀ a ∈ uses, w.Cut a.1) {answers : List Answer}
    (used : useAll useOne m uses = .ok (answers, m')) : m'.shown u = m.shown u := by
  obtain ⟨_, -, becomes⟩ := (useParts_becomes held parts).of_ok used
  exact shown_apart becomes.2 apart

/-! ### Accesses -/

/-- A word that a view has can be accessed; for any other the view refuses, and the block is
never asked. -/
structure Guards (m : Memory) (v : View) : Prop where
  stored : ∀ i < v.words, v.start + i < (m.blockOf v).size
  load : ∀ i, m.load v i = if i < v.words then .ok (m.word v i) else .error (.outsideView i v.words)
  store : ∀ i x,
    m.store v i x = if i < v.words then .ok (m.put v i x) else .error (.outsideView i v.words)

theorem Holds.guards (held : m.Holds v) : m.Guards v where
  stored i inside := by
    unfold Holds at held
    omega
  load i := by
    by_cases inside : i < v.words
    · rw [if_pos inside, load_eq held inside]
    · rw [if_neg inside, Memory.load, if_neg inside]
  store i x := by
    by_cases inside : i < v.words
    · rw [if_pos inside, store_eq held inside]
    · rw [if_neg inside, Memory.store, if_neg inside]

end Memory

/-! ### Cut again and again -/

/-- The halves of a view are all of it, and each is left alone by the other. -/
structure View.Halves (m : Memory) (v : View) (mid : Nat) (low high : View) : Prop where
  lengths : low.bytes = mid ∧ mid + high.bytes = v.bytes
  whole : m.shown v = m.shown low ++ m.shown high
  below : ∀ uses : List (View × Use), (∀ a ∈ uses, low.Cut a.1) → ∀ answers m',
    useAll Memory.useOne m uses = .ok (answers, m') →
      m'.shown high = m.shown high ∧ m'.shown v = m'.shown low ++ m.shown high
  above : ∀ uses : List (View × Use), (∀ a ∈ uses, high.Cut a.1) → ∀ answers m',
    useAll Memory.useOne m uses = .ok (answers, m') →
      m'.shown low = m.shown low ∧ m'.shown v = m.shown low ++ m'.shown high

theorem View.halves {m : Memory} {v low high : View} {mid : Nat} (held : m.Holds v)
    (split : v.splitAt mid = some (low, high)) : View.Halves m v mid low high where
  lengths := by
    obtain ⟨first, second⟩ := splitAt_ok split
    have fits := (window_made first).1
    have first := place_window first
    have second := place_window second
    omega
  whole := Memory.shown_split split
  below uses parts answers m' used := by
    have same := Memory.useParts_apart (held.cut (Cut.whole.splitAt split).1) (splitAt_apart split)
      parts used
    exact ⟨same, same ▸ Memory.shown_split split⟩
  above uses parts answers m' used := by
    have same := Memory.useParts_apart (held.cut (Cut.whole.splitAt split).2)
      (splitAt_apart split).symm parts used
    exact ⟨same, same ▸ Memory.shown_split split⟩

/-- What a view is that was cut out of a block. -/
structure View.Nests (frame v : View) (m : Memory) : Prop where
  /-- It lies inside the block, and no access that it lets through leaves the block. -/
  inside : v.Inside frame
  guards : m.Guards v
  /-- What is made out of it lies inside it and shows a part of it. -/
  parts : ∀ steps w, v.cutAll steps = some w →
    w.Inside v ∧ m.shown w = ((m.shown v).drop (w.placeIn v)).take w.bytes
  window : ∀ offset length, (∃ w, v.window offset length = some w) ↔
    8 ∣ offset ∧ 8 ∣ length ∧ offset + length ≤ v.bytes
  windowAt : ∀ offset length w, v.window offset length = some w →
    w.placeIn v = offset ∧ w.bytes = length
  /-- A window of a window is a window at the sum of the offsets, unless it is too long. -/
  nested : ∀ offset length w, v.window offset length = some w → ∀ offset' length',
    w.window offset' length' =
      if offset' + length' ≤ length then v.window (offset + offset') length' else none
  split : ∀ mid, (∃ halves, v.splitAt mid = some halves) ↔ 8 ∣ mid ∧ mid ≤ v.bytes
  halves : ∀ mid low high, v.splitAt mid = some (low, high) → View.Halves m v mid low high
  /-- To use parts of it is to use the bytes at their places. -/
  uses : ∀ uses : List (View × Use), (∀ a ∈ uses, v.Cut a.1) →
    (useAll Memory.useOne m uses).map (Prod.map id (·.shown v)) =
      useAll (fun bytes a => Flat.usePart bytes (a.1.placeIn v) a.1.bytes a.2) (m.shown v) uses
  /-- No step overflows. -/
  checked : (∀ offset length, v.windowChecked offset length = .ok (v.window offset length)) ∧
    ∀ mid, v.splitAtChecked mid = .ok (v.splitAt mid)

theorem View.nests {m : Memory} {frame v : View} (held : m.Holds frame) (short : frame.Short)
    (cut : frame.Cut v) : frame.Nests v m where
  inside := cut.inside
  guards := (held.cut cut).guards
  parts steps w made := by
    have part := (cut_cutAll made).inside
    exact ⟨part, Memory.shown_part part⟩
  window offset length := by
    constructor
    · rintro ⟨w, made⟩
      exact (window_made made).1
    · intro fits
      exact ⟨_, (window_eq v offset length).trans (if_pos fits)⟩
  windowAt _ _ _ := place_window
  nested _ _ _ := window_window
  split mid := by
    rw [splitAt_eq]
    constructor
    · rintro ⟨halves, split⟩
      exact (Option.ite_none_right_eq_some.mp split).1
    · intro fits
      exact ⟨_, if_pos fits⟩
  halves _ _ _ := View.halves (held.cut cut)
  uses uses parts := (Memory.useParts_becomes (held.cut cut) parts).map_eq fun _ _ becomes => becomes.1
  checked := by
    have short := short.inside cut.inside
    exact ⟨windowChecked_eq short, splitAtChecked_eq short⟩

/-- However a zeroed block is cut into windows and halves, with whatever arguments, and whatever
happens in memory meanwhile, the views nest and the halves are kept apart. -/
theorem View.windows_nest {m₀ m₁ m : Memory} {size : Nat} {frame v : View} {steps : List Cutting}
    (allocated : m₀.allocate size = .ok (frame, m₁)) (later : m₁.Grows m)
    (made : frame.cutAll steps = some v) : frame.Nests v m :=
  nests (later.holds frame (Memory.allocate_ok allocated).2.1) (Memory.short_allocate allocated)
    (cut_cutAll made)

/-- Bytes that are written into the lower half of a half of a window are seen there, a write that
would reach into the upper half is refused, and no window is found by going round. -/
theorem View.windows_nest_in_half :
    ∃ m₁ : Memory, ({} : Memory).allocate 64 = .ok (⟨0, 0, 8⟩, m₁) ∧
      (⟨0, 0, 8⟩ : View).cutAll [.window 8 48, .above 16] = some ⟨0, 3, 4⟩ ∧
      (⟨0, 3, 4⟩ : View).splitAt 16 = some (⟨0, 3, 2⟩, ⟨0, 5, 2⟩) ∧
      (useAll Memory.useOne m₁ [(⟨0, 3, 2⟩, .write 14 [1, 2]), (⟨0, 3, 2⟩, .write 15 [3, 4]),
          (⟨0, 3, 2⟩, .load 1)]).map (Prod.map id (·.shown ⟨0, 3, 4⟩)) =
        .ok ([.written true, .written false, .word 0x0201000000000000],
          [0, 0, 0, 0, 0, 0, 0, 0, 0, 0, 0, 0, 0, 0, 1, 2] ++ List.replicate 16 0) ∧
      ¬ ∃ w, (⟨0, 3, 4⟩ : View).window 0xfffffffffffffff8 16 = some w := by
  have allocated : ({} : Memory).allocate 64 =
      .ok (⟨0, 0, 8⟩, ⟨#[#[0, 0, 0, 0, 0, 0, 0, 0]]⟩) := rfl
  have made : (⟨0, 0, 8⟩ : View).cutAll [.window 8 48, .above 16] = some ⟨0, 3, 4⟩ := by decide
  have split : (⟨0, 3, 4⟩ : View).splitAt 16 = some (⟨0, 3, 2⟩, ⟨0, 5, 2⟩) := by decide
  have low : (⟨0, 3, 4⟩ : View).Cut ⟨0, 3, 2⟩ := (Cut.whole.splitAt split).1
  have nests := windows_nest allocated (.refl _) made
  refine ⟨_, allocated, made, split, ?_, ?_⟩
  · rw [nests.uses _ (by simpa using low)]
    decide +kernel
  · rw [nests.window]
    decide

end Conduit

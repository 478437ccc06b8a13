/-
# A view is an array of bytes

Memory is kept in words, and a byte is written by reading a word, replacing some of its bits and
writing it back. Whoever uses a view need not know. `Flat` says what is done to a plain list of
bytes: a word is eight of them, the least significant first, a write replaces a range, and a
string is what stands before the first zero byte. Any sequence of uses of a view, at whatever
offsets, has the answers and leaves the bytes that it would on the list that the view shows at
first (`view_is_byte_array`), and no word outside the view is changed.

* `Memory.use`, `Memory.useChecked` — one use of a view, plainly and with every step checked.
* `Refines` — outcomes that agree up to what stands for what; one use after the other keeps it.
-/

import Conduit.Proofs.Memory.Checked
import Mathlib.Data.Nat.Digits.Defs

namespace Conduit

/-! ### One thing after the other -/

section Runs

variable {ρ σ α β : Type}

/-- Does one thing after the other, up to the first panic. -/
def useAll (use : ρ → α → Except Panic (β × ρ)) (r : ρ) : List α → Except Panic (List β × ρ)
  | [] => .ok ([], r)
  | a :: rest => do
      let (b, r) ← use r a
      let (bs, r) ← useAll use r rest
      return (b :: bs, r)

/-- Two things are done to states of which one stands for the other: both panic alike, or both
give the same and the one state still stands for the other. -/
inductive Refines (R : ρ → σ → Prop) : Except Panic (β × ρ) → Except Panic (β × σ) → Prop where
  | returns {b : β} {r : ρ} {s : σ} (stands : R r s) : Refines R (.ok (b, r)) (.ok (b, s))
  | panics (e : Panic) : Refines R (.error e) (.error e)

variable {R : ρ → σ → Prop} {use : ρ → α → Except Panic (β × ρ)}
  {use' : σ → α → Except Panic (β × σ)}

/-- What holds of each use holds of any number of them. -/
theorem Refines.useAll {actions : List α}
    (one : ∀ r s, ∀ a ∈ actions, R r s → Refines R (use r a) (use' s a)) {r : ρ} {s : σ}
    (stands : R r s) : Refines R (useAll use r actions) (useAll use' s actions) := by
  induction actions generalizing r s with
  | nil => exact .returns stands
  | cons a rest ih =>
      rw [Conduit.useAll, Conduit.useAll]
      have first := one r s a List.mem_cons_self stands
      generalize use r a = x, use' s a = y at first ⊢
      cases first with
      | panics e => exact .panics e
      | returns stands =>
          have later := ih (fun r s b mem => one r s b (List.mem_cons_of_mem a mem)) stands
          simp only [bind, Except.bind]
          generalize Conduit.useAll use _ rest = x, Conduit.useAll use' _ rest = y at later ⊢
          cases later with
          | panics e => exact .panics e
          | returns stands => exact .returns stands

/-- A state that stands for another by a function of it is computed along. -/
theorem Refines.map_eq {shows : ρ → σ} (shown : ∀ r s, R r s → shows r = s)
    {x : Except Panic (β × ρ)} {y : Except Panic (β × σ)} (refines : Refines R x y) :
    x.map (Prod.map id shows) = y := by
  cases refines with
  | returns stands => exact congrArg (fun s => Except.ok (_, s)) (shown _ _ stands)
  | panics e => rfl

theorem Refines.of_ok {x : Except Panic (β × ρ)} {y : Except Panic (β × σ)} {b : β} {r : ρ}
    (refines : Refines R x y) (ok : x = .ok (b, r)) : ∃ s, y = .ok (b, s) ∧ R r s := by
  subst ok
  cases refines with
  | returns stands => exact ⟨_, rfl, stands⟩

/-- A panic comes from one of the things that are done. -/
theorem useAll_panics {Inv : ρ → Prop}
    (keeps : ∀ r a b r', Inv r → use r a = .ok (b, r') → Inv r') {actions : List α} {r : ρ}
    (start : Inv r) {e : Panic} (panics : useAll use r actions = .error e) :
    ∃ a ∈ actions, ∃ r', Inv r' ∧ use r' a = .error e := by
  induction actions generalizing r with
  | nil => cases panics
  | cons a rest ih =>
      rw [useAll] at panics
      cases used : use r a with
      | error e' =>
          rw [used] at panics
          injection panics with same
          subst same
          exact ⟨a, List.mem_cons_self, r, start, used⟩
      | ok result =>
          obtain ⟨b, r'⟩ := result
          have later : useAll use r' rest = .error e := by
            rw [used] at panics
            cases left : useAll use r' rest with
            | error e' =>
                simp only [bind, Except.bind, left] at panics
                exact panics
            | ok result =>
                simp only [bind, Except.bind, left] at panics
                cases panics
          obtain ⟨a', mem, found⟩ := ih (keeps r a b r' start used) later
          exact ⟨a', List.mem_cons_of_mem a mem, found⟩

theorem useAll_congr {use' : ρ → α → Except Panic (β × ρ)} {actions : List α}
    (one : ∀ r, ∀ a ∈ actions, use r a = use' r a) (r : ρ) :
    useAll use r actions = useAll use' r actions := by
  induction actions generalizing r with
  | nil => rfl
  | cons a rest ih =>
      rw [useAll, useAll, one r a List.mem_cons_self]
      simp only [ih fun r b mem => one r b (List.mem_cons_of_mem a mem)]

end Runs

/-! ### Lists of bytes -/

namespace Flat

/-- The number that bytes stand for, the least significant first. -/
def number (bytes : List UInt8) : Nat := Nat.ofDigits 256 (bytes.map UInt8.toNat)

/-- The eight bytes of a word, the least significant first. -/
def digits (w : UInt64) : List UInt8 := (List.range 8).map fun k => UInt8.ofNat (w.toNat / 256 ^ k)

/-- Word `i`: the eight bytes from `8 * i` on. -/
def word (bytes : List UInt8) (i : Nat) : UInt64 :=
  UInt64.ofNat (number ((bytes.drop (8 * i)).take 8))

/-- The bytes with those from an offset on replaced. -/
def overwrite (bytes : List UInt8) (offset : Nat) (data : List UInt8) : List UInt8 :=
  bytes.take offset ++ data ++ bytes.drop (offset + data.length)

/-- The bytes before the first zero byte, if there is one. -/
def string? (bytes : List UInt8) : Option (List UInt8) :=
  if 0 ∈ bytes then some (bytes.takeWhile (· ≠ 0)) else none

end Flat

/-- What can be asked of a view. -/
inductive View.Use where
  | load (index : Nat)
  | store (index : Nat) (word : UInt64)
  | write (offset : Nat) (data : List UInt8)
  /-- The bytes from an offset on are read into a buffer, as many as it is long. -/
  | read (offset : Nat) (buffer : List UInt8)
  | readString (offset : Nat)

/-- The word that is asked for by its index; bytes are asked for at an offset. -/
def View.Use.index? : View.Use → Option Nat
  | .load i => some i
  | .store i _ => some i
  | _ => none

/-- What is answered; bytes that are read come in the caller's buffer. -/
inductive View.Answer where
  | word (word : UInt64)
  | stored
  | written (done : Bool)
  | read (done : Bool) (buffer : List UInt8)
  | string (found : Option (List UInt8))
  deriving DecidableEq

open View (Use Answer)

/-- One use of a list of bytes. -/
def Flat.use (bytes : List UInt8) : Use → Except Panic (Answer × List UInt8)
  | .load i =>
      if 8 * i + 8 ≤ bytes.length then .ok (.word (word bytes i), bytes)
      else .error (.outsideView i (bytes.length / 8))
  | .store i w =>
      if 8 * i + 8 ≤ bytes.length then .ok (.stored, overwrite bytes (8 * i) (digits w))
      else .error (.outsideView i (bytes.length / 8))
  | .write offset data =>
      if offset + data.length ≤ bytes.length then .ok (.written true, overwrite bytes offset data)
      else .ok (.written false, bytes)
  | .read offset buffer =>
      if offset + buffer.length ≤ bytes.length then
        .ok (.read true ((bytes.drop offset).take buffer.length), bytes)
      else .ok (.read false buffer, bytes)
  | .readString offset => .ok (.string (string? (bytes.drop offset)), bytes)

/-- A use that panics asked for a word outside. -/
theorem Flat.use_panics {bytes : List UInt8} {u : Use} {e : Panic}
    (panics : Flat.use bytes u = .error e) :
    ∃ i, u.index? = some i ∧ bytes.length / 8 ≤ i ∧ e = .outsideView i (bytes.length / 8) := by
  cases u with
  | load i =>
      rw [use] at panics
      split at panics
      · cases panics
      · injection panics with outside
        exact ⟨i, rfl, by omega, outside.symm⟩
  | store i w =>
      rw [use] at panics
      split at panics
      · cases panics
      · injection panics with outside
        exact ⟨i, rfl, by omega, outside.symm⟩
  | write offset data =>
      rw [use] at panics
      split at panics <;> cases panics
  | read offset buffer =>
      rw [use] at panics
      split at panics <;> cases panics
  | readString offset => cases panics

namespace Memory

/-- One use of a view. -/
def use (v : View) (m : Memory) : Use → Except Panic (Answer × Memory)
  | .load i => do return (.word (← m.load v i), m)
  | .store i w => do return (.stored, ← m.store v i w)
  | .write offset data => do
      let (done, m) ← m.writeBytes v offset data
      return (.written done, m)
  | .read offset buffer => do
      match ← m.readBytes v offset buffer.length with
      | some bytes => return (.read true bytes, m)
      | none => return (.read false buffer, m)
  | .readString offset => do return (.string (← m.readString v offset), m)

/-- One use of a view with every step checked. -/
def useChecked (v : View) (m : Memory) : Use → Except Panic (Answer × Memory)
  | .load i => do return (.word (← m.loadChecked v i), m)
  | .store i w => do return (.stored, ← m.storeChecked v i w)
  | .write offset data => do
      let (done, m) ← m.writeBytesChecked v offset data
      return (.written done, m)
  | .read offset buffer => do
      match ← m.readBytesChecked v offset buffer.length with
      | some bytes => return (.read true bytes, m)
      | none => return (.read false buffer, m)
  | .readString offset => do return (.string (← m.readStringChecked v offset), m)

/-- The bytes that a view shows. -/
def shown (m : Memory) (v : View) : List UInt8 := (List.range v.bytes).map (m.byte v)

variable {m m' : Memory} {v : View} {offset : Nat}

theorem useChecked_eq (short : v.Short) (m : Memory) (u : Use) : m.useChecked v u = m.use v u := by
  cases u with
  | load i => rw [useChecked, loadChecked_eq short, use]
  | store i w => rw [useChecked, storeChecked_eq short, use]
  | write offset data => rw [useChecked, writeBytesChecked_eq short, use]
  | read offset buffer => rw [useChecked, readBytesChecked_eq short, use]
  | readString offset => rw [useChecked, readStringChecked_eq short, use]

/-! ### What a view shows -/

theorem length_shown (m : Memory) (v : View) : (m.shown v).length = v.bytes := by
  rw [shown, List.length_map, List.length_range]

theorem getElem_shown {k : Nat} (inside : k < (m.shown v).length) : (m.shown v)[k] = m.byte v k := by
  simp only [shown, List.getElem_map, List.getElem_range]

theorem shown_congr {w : View} (length : w.bytes = v.bytes)
    (same : ∀ k < v.bytes, m'.byte w k = m.byte v k) : m'.shown w = m.shown v := by
  rw [shown, shown, length]
  exact List.map_congr_left fun k mem => same k (List.mem_range.mp mem)

/-- A part of what is shown. -/
theorem shown_slice {count : Nat} (fits : offset + count ≤ v.bytes) :
    ((m.shown v).drop offset).take count = (List.range count).map fun k => m.byte v (offset + k) := by
  apply List.ext_getElem
  · rw [List.length_take, List.length_drop, length_shown, List.length_map, List.length_range]
    omega
  · intro k _ _
    rw [List.getElem_take, List.getElem_drop, getElem_shown, List.getElem_map, List.getElem_range]

/-- Where a range was replaced and nothing else. -/
theorem shown_overwrite {data : List UInt8} (fits : offset + data.length ≤ v.bytes)
    (inside : ∀ k (hk : k < data.length), m'.byte v (offset + k) = data[k])
    (outside : ∀ k, k < offset ∨ offset + data.length ≤ k → m'.byte v k = m.byte v k) :
    m'.shown v = Flat.overwrite (m.shown v) offset data := by
  have prior : ((m.shown v).take offset).length = offset := by
    rw [List.length_take, length_shown]
    omega
  apply List.ext_getElem
  · rw [Flat.overwrite, List.length_append, List.length_append, prior, List.length_drop,
      length_shown, length_shown]
    omega
  intro k hk _
  rw [getElem_shown hk]
  simp only [Flat.overwrite, List.getElem_append, List.length_append, prior]
  by_cases before : k < offset
  · rw [dif_pos (by omega), dif_pos before, List.getElem_take, getElem_shown]
    exact outside k (.inl before)
  · by_cases within : k < offset + data.length
    · have same := inside (k - offset) (by omega)
      rw [show offset + (k - offset) = k by omega] at same
      rw [dif_pos within, dif_neg before]
      exact same
    · rw [dif_neg within, List.getElem_drop, getElem_shown]
      rw [show offset + data.length + (k - (offset + data.length)) = k by omega]
      exact outside k (.inr (by omega))

/-! ### Words among bytes -/

end Memory

theorem Word.toNat_byte (w : UInt64) {k : Nat} (hk : k < size) :
    (byte w k).toNat = w.toNat / 256 ^ k % 256 := by
  have small : 8 * k < 64 := by
    unfold size at hk
    omega
  rw [byte, UInt64.toNat_toUInt8, UInt64.toNat_shiftRight, toNat_shift hk, Nat.mod_eq_of_lt small,
    Nat.shiftRight_eq_div_pow, Nat.pow_mul]

namespace Flat

/-- The digits of a number below a power of the base make up the number. -/
theorem ofDigits_range (n count : Nat) :
    Nat.ofDigits 256 ((List.range count).map fun k => n / 256 ^ k % 256) = n % 256 ^ count := by
  induction count with
  | zero => rw [Nat.pow_zero, Nat.mod_one, List.range_zero, List.map_nil, Nat.ofDigits_nil]
  | succ count ih =>
      rw [List.range_succ, List.map_append, List.map_singleton, Nat.ofDigits_append, ih,
        List.length_map, List.length_range, Nat.ofDigits_singleton, Nat.mod_pow_succ]

theorem number_toBytes (w : UInt64) : number (Word.toBytes w) = w.toNat := by
  have bytes : (Word.toBytes w).map UInt8.toNat =
      (List.range 8).map fun k => w.toNat / 256 ^ k % 256 := by
    rw [Word.toBytes, List.map_map]
    exact List.map_congr_left fun k mem => Word.toNat_byte w (List.mem_range.mp mem)
  rw [number, bytes, ofDigits_range]
  exact Nat.mod_eq_of_lt w.toNat_lt

theorem digits_eq (w : UInt64) : digits w = Word.toBytes w := by
  refine List.map_congr_left fun k mem => UInt8.toNat_inj.mp ?_
  rw [Word.toNat_byte w (List.mem_range.mp mem), UInt8.toNat_ofNat']

theorem length_digits (w : UInt64) : (digits w).length = 8 := by
  rw [digits, List.length_map, List.length_range]

end Flat

namespace Memory

variable {m m' : Memory} {v : View} {offset : Nat}

/-- The bytes of a word of a view. -/
theorem byte_eq_word (m : Memory) (v : View) (i : Nat) {k : Nat} (hk : k < Word.size) :
    m.byte v (8 * i + k) = Word.byte (m.word v i) k := by
  unfold Word.size at hk
  rw [byte, Word.size, show (8 * i + k) / 8 = i by omega, show (8 * i + k) % 8 = k by omega]

theorem word_shown {i : Nat} (inside : i < v.words) : Flat.word (m.shown v) i = m.word v i := by
  have fits : 8 * i + 8 ≤ v.bytes := by
    unfold View.bytes Word.size
    omega
  have bytes : ((m.shown v).drop (8 * i)).take 8 = Word.toBytes (m.word v i) := by
    rw [shown_slice fits]
    exact List.map_congr_left fun k mem => byte_eq_word m v i (List.mem_range.mp mem)
  rw [Flat.word, bytes, Flat.number_toBytes, UInt64.ofNat_toNat]

theorem shown_put (held : m.Holds v) {i : Nat} (inside : i < v.words) (w : UInt64) :
    (m.put v i w).shown v = Flat.overwrite (m.shown v) (8 * i) (Flat.digits w) := by
  have length := Flat.length_digits w
  refine shown_overwrite ?_ (fun k hk => ?_) (fun k outside => ?_)
  · rw [length, View.bytes, Word.size]
    omega
  · rw [length] at hk
    rw [byte_eq_word _ v i hk, word_put held inside, if_pos ⟨rfl, rfl⟩]
    simp only [Flat.digits_eq, Word.toBytes, List.getElem_map, List.getElem_range]
  · rw [length] at outside
    have other : ¬ (v.block = v.block ∧ v.start + i = v.start + k / Word.size) := by
      unfold Word.size
      omega
    rw [byte, word_put held inside, if_neg other, byte]

/-! ### Bytes -/

theorem shown_putRun (held : m.Holds v) {data : List UInt8} (fits : offset + data.length ≤ v.bytes) :
    (m.putRun v offset data).shown v = Flat.overwrite (m.shown v) offset data :=
  shown_overwrite fits (fun _ => byte_putRun_inside held fits)
    (fun _ => byte_putRun_outside held fits)

theorem getBytes_eq (held : m.Holds v) {count : Nat} (fits : offset + count ≤ v.bytes) :
    m.getBytes v offset count = .ok (((m.shown v).drop offset).take count) := by
  rw [shown_slice fits]
  induction count generalizing offset with
  | zero => rfl
  | succ count ih =>
      rw [getBytes, byteAt_eq held (by omega)]
      simp only [bind, Except.bind]
      rw [ih (by omega)]
      simp only [pure, Except.pure, List.range_succ_eq_map, List.map_cons, List.map_map,
        Nat.add_zero]
      congr 2
      exact List.map_congr_left fun k _ => congrArg (m.byte v) (by omega)

theorem readBytes_eq (held : m.Holds v) {count : Nat} (fits : offset + count ≤ v.bytes) :
    m.readBytes v offset count = .ok (some (((m.shown v).drop offset).take count)) := by
  have covered : v.covers offset count = true := decide_eq_true fits
  rw [readBytes, if_pos covered, getBytes_eq held fits]
  rfl

/-- What stands before the first zero byte is found byte by byte. -/
theorem stringWithin_shown (held : m.Holds v) {count : Nat} (rest : offset + count = v.bytes) :
    m.stringWithin v offset count = .ok (Flat.string? ((m.shown v).drop offset)) := by
  induction count generalizing offset with
  | zero =>
      rw [List.drop_of_length_le (by rw [length_shown]; omega)]
      rfl
  | succ count ih =>
      have inside : offset < (m.shown v).length := by
        rw [length_shown]
        omega
      rw [stringWithin, byteAt_eq held (by omega), ih (by omega), List.drop_eq_getElem_cons inside,
        getElem_shown inside]
      simp only [bind, Except.bind]
      by_cases zero : m.byte v offset = 0
      · rw [if_pos zero, zero, Flat.string?, if_pos List.mem_cons_self]
        rfl
      · rw [if_neg zero]
        simp only [Flat.string?, List.mem_cons, Ne.symm zero, false_or]
        by_cases ends : 0 ∈ (m.shown v).drop (offset + 1)
        · rw [if_pos ends, if_pos ends, List.takeWhile_cons, if_pos (decide_eq_true zero)]
          rfl
        · rw [if_neg ends, if_neg ends]
          rfl

theorem readString_shown (held : m.Holds v) (offset : Nat) :
    m.readString v offset = .ok (Flat.string? ((m.shown v).drop offset)) := by
  unfold readString
  by_cases inside : offset ≤ v.bytes
  · exact stringWithin_shown held (by omega)
  · rw [show v.bytes - offset = 0 by omega,
      List.drop_of_length_le (by rw [length_shown]; omega)]
    rfl

/-! ### Uses -/

/-- Memory after a use shows other bytes, and differs in no word outside the view. -/
def Becomes (m : Memory) (v : View) (m' : Memory) (bytes : List UInt8) : Prop :=
  m'.shown v = bytes ∧ m.OnlyWithin m' v 0 v.words

theorem becomes_refl (m : Memory) (v : View) : m.Becomes v m (m.shown v) :=
  ⟨rfl, .refl m v 0 v.words⟩

/-- A word lies inside a view if its bytes do. -/
theorem word_inside (m : Memory) (v : View) (i : Nat) :
    8 * i + 8 ≤ (m.shown v).length ↔ i < v.words := by
  rw [length_shown, View.bytes, Word.size]
  omega

theorem words_shown (m : Memory) (v : View) : (m.shown v).length / 8 = v.words := by
  rw [length_shown, View.bytes, Word.size]
  omega

/-- One use of a view is the use of the bytes that it shows. -/
theorem use_becomes (held : m.Holds v) (u : Use) :
    Refines (m.Becomes v) (m.use v u) (Flat.use (m.shown v) u) := by
  cases u with
  | load i =>
      rw [use, Flat.use, words_shown]
      by_cases inside : i < v.words
      · rw [if_pos ((word_inside m v i).mpr inside), load_eq held inside, word_shown inside]
        exact .returns (becomes_refl m v)
      · rw [if_neg (mt (word_inside m v i).mp inside), load, if_neg inside]
        exact .panics _
  | store i w =>
      rw [use, Flat.use, words_shown]
      by_cases inside : i < v.words
      · rw [if_pos ((word_inside m v i).mpr inside), store_eq held inside]
        have only : m.OnlyWithin (m.put v i w) v 0 v.words :=
          (OnlyWithin.put held inside w).trans (.refl _ v i 1) (by omega) (by omega)
        exact .returns ⟨shown_put held inside w, only⟩
      · rw [if_neg (mt (word_inside m v i).mp inside), store, if_neg inside]
        exact .panics _
  | write offset data =>
      rw [use, Flat.use, length_shown]
      by_cases fits : offset + data.length ≤ v.bytes
      · rw [if_pos fits, writeBytes_eq held fits]
        exact .returns ⟨shown_putRun held fits, .putRun held fits⟩
      · have refused : ¬ v.covers offset data.length = true := mt of_decide_eq_true fits
        rw [if_neg fits, writeBytes, if_neg refused]
        exact .returns (becomes_refl m v)
  | read offset buffer =>
      rw [use, Flat.use, length_shown]
      by_cases fits : offset + buffer.length ≤ v.bytes
      · rw [if_pos fits, readBytes_eq held fits]
        exact .returns (becomes_refl m v)
      · have refused : ¬ v.covers offset buffer.length = true := mt of_decide_eq_true fits
        rw [if_neg fits, readBytes, if_neg refused]
        exact .returns (becomes_refl m v)
  | readString offset =>
      rw [use, Flat.use, readString_shown held]
      exact .returns (becomes_refl m v)

theorem OnlyWithin.holds {w : View} {first count : Nat} (only : m.OnlyWithin m' v first count)
    (held : m.Holds w) : m'.Holds w := by
  unfold Holds at held ⊢
  rw [only.size]
  exact held

/-- What each of some actions does to a view, all of them in a row do. -/
theorem run_becomes {α : Type} {act : Memory → α → Except Panic (Answer × Memory)}
    {act' : List UInt8 → α → Except Panic (Answer × List UInt8)} (held : m.Holds v)
    {actions : List α} (one : ∀ m' : Memory, m'.Holds v → ∀ a ∈ actions,
      Refines (m'.Becomes v) (act m' a) (act' (m'.shown v) a)) :
    Refines (m.Becomes v) (useAll act m actions) (useAll act' (m.shown v) actions) := by
  refine Refines.useAll (fun m' bytes a mem becomes => ?_) (becomes_refl m v)
  obtain ⟨rfl, before⟩ := becomes
  have next := one m' (before.holds held) a mem
  generalize act m' a = x, act' (m'.shown v) a = y at next ⊢
  cases next with
  | panics e => exact .panics e
  | returns becomes =>
      exact .returns ⟨becomes.1, before.trans becomes.2 (by omega) (by omega)⟩

/-- Any uses of a view are the uses of the bytes that it shows. -/
theorem useAll_becomes (held : m.Holds v) (uses : List Use) :
    Refines (m.Becomes v) (useAll (use v) m uses) (useAll Flat.use (m.shown v) uses) :=
  run_becomes held fun _ held' u _ => use_becomes held' u

theorem use_holds (held : m.Holds v) {u : Use} {answer : Answer}
    (used : m.use v u = .ok (answer, m')) : m'.Holds v := by
  obtain ⟨_, -, becomes⟩ := (use_becomes held u).of_ok used
  exact becomes.2.holds held

theorem use_panics (held : m.Holds v) {u : Use} {e : Panic} (panics : m.use v u = .error e) :
    ∃ i, u.index? = some i ∧ v.words ≤ i ∧ e = .outsideView i v.words := by
  have flat := use_becomes held u
  rw [panics] at flat
  generalize used : Flat.use (m.shown v) u = y at flat
  cases flat
  rw [← words_shown m v]
  exact Flat.use_panics used

/-! ### Views of a zeroed block -/

/-- A word of a view is a word of every view that it lies in. -/
theorem word_part {w : View} (part : w.Inside v) (i : Nat) :
    m.word w i = m.word v (w.start - v.start + i) := by
  have start := part.start
  unfold word blockOf
  rw [part.block, show v.start + (w.start - v.start + i) = w.start + i by omega]

theorem shown_zero (zero : ∀ i, m.word v i = 0) : m.shown v = List.replicate v.bytes 0 := by
  have bytes : ∀ k ∈ List.range v.bytes, m.byte v k = 0 := fun k _ => by
    apply UInt8.toNat_inj.mp
    rw [byte, zero, Word.toNat_byte 0 (mod_lt_size k), UInt64.toNat_zero, Nat.zero_div]
    rfl
  rw [shown, List.map_congr_left bytes, List.map_const', List.length_range]

/-- Uses of a view are uses of the array of bytes that it shows. -/
structure IsArray (m : Memory) (v : View) (uses : List Use) : Prop where
  /-- The answers, and what is shown in the end, are those of the array. -/
  same : (useAll (use v) m uses).map (Prod.map id (·.shown v)) = useAll Flat.use (m.shown v) uses
  /-- Nothing else in memory is changed. -/
  frame : ∀ answers m', useAll (use v) m uses = .ok (answers, m') → m.OnlyWithin m' v 0 v.words
  /-- Only a word outside the view makes a panic, so the uses of bytes never do. -/
  panics : ∀ e, useAll (use v) m uses = .error e →
    ∃ u ∈ uses, ∃ i, u.index? = some i ∧ v.words ≤ i ∧ e = .outsideView i v.words
  /-- On the way nothing overflows. -/
  checked : useAll (useChecked v) m uses = useAll (use v) m uses

theorem isArray (held : m.Holds v) (short : v.Short) (uses : List Use) : m.IsArray v uses where
  same := (useAll_becomes held uses).map_eq fun _ _ becomes => becomes.1
  frame answers m' used := by
    obtain ⟨_, -, becomes⟩ := (useAll_becomes held uses).of_ok used
    exact becomes.2
  panics e panics := by
    obtain ⟨u, mem, m', held', panics⟩ :=
      useAll_panics (fun _ _ _ _ held used => use_holds held used) held panics
    exact ⟨u, mem, use_panics held' panics⟩
  checked := useAll_congr (fun m u _ => useChecked_eq short m u) m

/-- A view that was cut out of a zeroed block, whatever has happened in memory since, is an array
of bytes to whoever uses it, at whatever offsets; at first the bytes are zero. -/
theorem view_is_byte_array {m₀ m₁ : Memory} {size : Nat} {frame : View}
    (allocated : m₀.allocate size = .ok (frame, m₁)) (later : m₁.Grows m) (cut : frame.Cut v)
    (uses : List Use) :
    m.IsArray v uses ∧ (m.shown v).length = v.bytes ∧ m₁.shown v = List.replicate v.bytes 0 := by
  obtain ⟨-, held, zero⟩ := allocate_ok allocated
  have short := (short_allocate allocated).inside cut.inside
  refine ⟨isArray ((later.holds frame held).cut cut) short uses, length_shown m v, ?_⟩
  exact shown_zero fun i => (word_part cut.inside i).trans (zero _)

/-- Bytes that cross from one word into the next are read back as bytes, as a string and in the
words; a range that ends behind the view is refused, however large its offset is. -/
theorem byte_array_across_words :
    ∃ m₁ : Memory, ({} : Memory).allocate 32 = .ok (⟨0, 0, 4⟩, m₁) ∧
      (⟨0, 0, 4⟩ : View).Cut ⟨0, 1, 2⟩ ∧
      (useAll (use ⟨0, 1, 2⟩) m₁ [.write 6 [1, 2, 3, 0], .load 0, .load 1, .readString 7,
        .write 15 [9, 9], .write 0xffffffffffffffff [9], .read 8 [7, 7], .read 16 [7]]).map
          (Prod.map id (·.shown ⟨0, 1, 2⟩)) =
        .ok ([.written true, .word 0x0201000000000000, .word 3, .string (some [2, 3]),
          .written false, .written false, .read true [3, 0], .read false [7]],
          [0, 0, 0, 0, 0, 0, 1, 2, 3, 0, 0, 0, 0, 0, 0, 0]) := by
  have made : (⟨0, 0, 4⟩ : View).window 8 16 = some ⟨0, 1, 2⟩ := by decide
  have cut : (⟨0, 0, 4⟩ : View).Cut ⟨0, 1, 2⟩ := .window .whole made
  have allocated : ({} : Memory).allocate 32 = .ok (⟨0, 0, 4⟩, ⟨#[#[0, 0, 0, 0]]⟩) := rfl
  have array := view_is_byte_array allocated (.refl _) cut
  refine ⟨_, allocated, cut, ?_⟩
  rw [(array _).1.same, (array []).2.2]
  decide +kernel

end Memory

end Conduit

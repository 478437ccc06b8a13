/-
# Which values can be written

Values are written one behind the other, and the first that cannot be written makes writing
fail in its own way (`Inline.Offends`, `Paged.Offends`). If all of them can be, then what is
written is known to the last word: the words of the message, and over an endpoint the bytes of
the page, where the strings lie behind each other (`Inline.encode_eq`, `Paged.encode_eq`). If
one cannot be, then what is left in the page are the strings before it
(`Paged.encode_offended`).
-/

import Conduit.Proofs.Call.Codec
import Conduit.Proofs.Call.Shared.Codec
import Mathlib.Data.List.Induction

namespace Conduit

/-- A list that fails a test which no values pass has a first element that makes it fail. -/
theorem exists_first_failing {α : Type} {passes : List α → Prop} (none : passes []) {xs : List α}
    (fails : ¬ passes xs) :
    ∃ before x after, xs = before ++ x :: after ∧ passes before ∧ ¬ passes (before ++ [x]) := by
  induction xs using List.reverseRecOn with
  | nil => exact absurd none fails
  | append_singleton xs x ih =>
      by_cases held : passes xs
      · exact ⟨xs, x, [], rfl, held, fails⟩
      · obtain ⟨before, y, after, rfl, passed, failed⟩ := ih held
        refine ⟨before, y, after ++ [x], ?_, passed, failed⟩
        rw [List.append_assoc, List.cons_append]

/-! ### Without a page -/

namespace Inline

variable {tag : UInt64} {width : Nat} {before after values : List Value} {v : Value} {e : Error}

/-- None of the values is a capability, and there are words for all of them. -/
structure Fits (width : Nat) (values : List Value) : Prop where
  capless : .cap ∉ values.map Value.kind
  room : size values ≤ width

/-- How writing fails at a value. -/
def refusal : Value → Error
  | .str _ => .stringTooLong
  | _ => .notImplemented

/-- The first value that does not fit makes writing fail like this. -/
def Offends (width : Nat) (values : List Value) (e : Error) : Prop :=
  ∃ before v after, values = before ++ v :: after ∧ Fits width before ∧
    ¬ Fits width (before ++ [v]) ∧ e = refusal v

theorem size_append_singleton (values : List Value) (v : Value) :
    size (values ++ [v]) = size values + (wordsFor v).length := by
  simp only [size, List.map_append, List.map_cons, List.map_nil, List.sum_append, List.sum_cons,
    List.sum_nil, Nat.add_zero, Nat.add_assoc]

theorem fits_nil (one : 1 ≤ width) : Fits width [] := ⟨List.not_mem_nil, one⟩

theorem exists_offends (one : 1 ≤ width) (unfit : ¬ Fits width values) :
    ∃ e, Offends width values e := by
  obtain ⟨before, v, after, split, fits, fails⟩ := exists_first_failing (fits_nil one) unfit
  exact ⟨refusal v, before, v, after, split, fits, fails, rfl⟩

theorem fits_of_not_offends (one : 1 ≤ width) (free : ∀ e, ¬ Offends width values e) :
    Fits width values := by
  by_contra unfit
  obtain ⟨e, offends⟩ := exists_offends one unfit
  exact free e offends

theorem addAll_append (before rest : List Value) (words : List UInt64) :
    addAll width (before ++ rest) words = (addAll width before words).bind (addAll width rest) := by
  induction before generalizing words with
  | nil => rfl
  | cons v before ih =>
      cases v with
      | cap c => rfl
      | word w =>
          simp only [List.cons_append, addAll]
          split
          · exact ih _
          · rfl
      | str s =>
          simp only [List.cons_append, addAll]
          split
          · rfl
          · exact ih _

/-- All words are known. -/
theorem addAll_eq (fits : Fits width values) :
    addAll width values [tag] = .ok (tag :: values.flatMap wordsFor) := by
  have room := fits.room
  rw [← length_flatMap_wordsFor] at room
  have one : [tag].length ≤ width := Nat.le_trans (Nat.le_add_right 1 _) room
  rcases addAll_cases [tag] fits.capless one with ⟨-, added⟩ | ⟨large, -⟩
  · exact added
  · exact absurd room (Nat.not_le_of_lt large)

theorem encode_eq (fits : Fits width values) : encode tag values width =
    .ok { words := tag :: values.flatMap wordsFor ++ List.replicate (width - size values) 0 } := by
  have length : (tag :: values.flatMap wordsFor).length = size values := by
    rw [List.length_cons, Nat.add_comm, length_flatMap_wordsFor]
  rw [encode, addAll_eq fits, ← length]
  rfl

/-- Behind values that fit, a value that does not makes writing fail. -/
theorem addAll_refused (fits : Fits width before) (fails : ¬ Fits width (before ++ [v])) :
    addAll width (v :: after) (tag :: before.flatMap wordsFor) = .error (refusal v) := by
  have used : (tag :: before.flatMap wordsFor).length = size before := by
    rw [List.length_cons, Nat.add_comm, length_flatMap_wordsFor]
  have large : v.kind ≠ .cap → width < size before + (wordsFor v).length := by
    intro other
    rw [← size_append_singleton]
    refine Nat.lt_of_not_le fun room => fails ⟨?_, room⟩
    rw [List.map_append, List.mem_append, not_or]
    exact ⟨fits.capless, fun mem => other (List.mem_singleton.mp mem).symm⟩
  cases v with
  | cap c => rfl
  | word w =>
      have full : ¬ size before < width := Nat.not_lt_of_ge (Nat.le_of_lt_succ (large nofun))
      rw [addAll, used, if_neg full]
      rfl
  | str s =>
      have full := large nofun
      rw [length_wordsFor_str, ← Nat.add_assoc] at full
      simp only [addAll, used, if_pos full, refusal]

theorem encode_offended (offends : Offends width values e) :
    encode tag values width = .error e := by
  obtain ⟨before, v, after, rfl, fits, fails, rfl⟩ := offends
  rw [encode, addAll_append, addAll_eq fits]
  simp only [Except.bind, addAll_refused fits fails]
  rfl

end Inline

/-! ### With a page -/

namespace Paged

variable {t : MessageType} {tag : UInt64} {page : Option View} {m m' : Memory} {d : Draft}
  {before after values : List Value} {s : String} {e : Error}

/-- The words of values, if the first string lies at this offset of the page. -/
def wordsFrom (offset : Nat) : List Value → List UInt64
  | [] => []
  | .word w :: rest => w :: wordsFrom offset rest
  | .str s :: rest =>
      UInt64.ofNat offset :: wordsFrom (offset + (Utf8.encode s).length + 1) rest
  | .cap _ :: rest => wordsFrom offset rest

/-- The strings of values behind each other, each with a zero byte behind it. -/
def image : List Value → List UInt8
  | [] => []
  | .word _ :: rest => image rest
  | .str s :: rest => Utf8.encode s ++ 0 :: image rest
  | .cap _ :: rest => image rest

/-- The capability among values. -/
def carried (values : List Value) : Option Cap := (values.filterMap Value.asCap).head?

/-- The memory with bytes written into the page, if there is one. -/
def imprint (page : Option View) (m : Memory) (offset : Nat) (bytes : List UInt8) : Memory :=
  match page with
  | none => m
  | some view => m.putRun view offset bytes

/-- How writing fails at a string. -/
def refusal (t : MessageType) (page : Option View) (s : String) : Error :=
  match page with
  | none => .noBufferPage t
  | some _ => if 0 ∈ Utf8.encode s then .argMismatch t else .stringTooLong

/-- The first string that has a zero byte, or does not fit the page behind those before it,
makes writing fail like this. -/
def Offends (t : MessageType) (page : Option View) (values : List Value) (e : Error) : Prop :=
  ∃ before s after, values = before ++ .str s :: after ∧ Tidy page before ∧
    ¬ Tidy page (before ++ [.str s]) ∧ e = refusal t page s

theorem length_wordsFrom (offset : Nat) (values : List Value) :
    (wordsFrom offset values).length = wordsOf values := by
  induction values generalizing offset with
  | nil => rfl
  | cons value rest ih =>
      cases value with
      | word w => rw [wordsFrom, List.length_cons, ih, wordsOf_word]
      | str s => rw [wordsFrom, List.length_cons, ih, wordsOf_str]
      | cap c => rw [wordsFrom, ih, wordsOf_cap]

theorem length_image (values : List Value) : (image values).length = spaceOf values := by
  induction values with
  | nil => rfl
  | cons value rest ih =>
      cases value with
      | word w => rw [image, ih, spaceOf_word]
      | cap c => rw [image, ih, spaceOf_cap]
      | str s => rw [image, List.length_append, List.length_cons, ih, spaceOf_str]; omega

theorem spaceOf_append (values more : List Value) :
    spaceOf (values ++ more) = spaceOf values + spaceOf more := by
  rw [spaceOf, List.map_append, List.sum_append]
  rfl

theorem wordsOf_append (values more : List Value) :
    wordsOf (values ++ more) = wordsOf values + wordsOf more := List.countP_append

theorem capsOf_append (values more : List Value) :
    capsOf (values ++ more) = capsOf values + capsOf more := List.countP_append

theorem wordsFrom_append (offset : Nat) (values more : List Value) :
    wordsFrom offset (values ++ more) =
      wordsFrom offset values ++ wordsFrom (offset + spaceOf values) more := by
  induction values generalizing offset with
  | nil => rfl
  | cons value rest ih =>
      cases value with
      | word w => rw [List.cons_append, wordsFrom, wordsFrom, ih, spaceOf_word, List.cons_append]
      | cap c => rw [List.cons_append, wordsFrom, wordsFrom, ih, spaceOf_cap]
      | str s =>
          rw [List.cons_append, wordsFrom, wordsFrom, ih, spaceOf_str, List.cons_append,
            Nat.add_assoc offset, Nat.add_assoc offset]

theorem image_append (values more : List Value) :
    image (values ++ more) = image values ++ image more := by
  induction values with
  | nil => rfl
  | cons value rest ih =>
      cases value with
      | word w => rw [List.cons_append, image, image, ih]
      | cap c => rw [List.cons_append, image, image, ih]
      | str s => rw [List.cons_append, image, image, ih, List.append_assoc, List.cons_append]

/-- The values in front of a simple list are simple. -/
theorem fits_of_append (simple : Binding.fits ((before ++ after).map Value.kind) = true) :
    Binding.fits (before.map Value.kind) = true := by
  rw [fits_iff] at simple ⊢
  rw [wordsOf_append, capsOf_append] at simple
  omega

/-! #### Adding values -/

theorem addAll_append (before rest : List Value) (d : Draft) (m : Memory) :
    addAll t page (before ++ rest) d m = (do
      match ← addAll t page before d m with
      | (.error e, m) => return (.error e, m)
      | (.ok d, m) => addAll t page rest d m) := by
  induction before generalizing d m with
  | nil => rfl
  | cons value before ih =>
      rw [List.cons_append, addAll, addAll]
      cases add t page value d m with
      | error cause => rfl
      | ok result =>
          obtain ⟨_ | d, m⟩ := result
          · rfl
          · simp only [bind, Except.bind] at ih ⊢
            exact ih d m

theorem imprint_nil (page : Option View) (m : Memory) (offset : Nat) :
    imprint page m offset [] = m := by
  cases page <;> rfl

/-- The draft after values that fit it, and the page. -/
theorem addAll_eq (fits : Fits page d values) (held : ∀ view, page = some view → m.Holds view) :
    addAll t page values d m = .ok (.ok {
        words := d.words ++ wordsFrom d.offset values
        cap := d.cap.or (carried values)
        offset := d.offset + spaceOf values },
      imprint page m d.offset (image values)) := by
  induction values generalizing d m with
  | nil =>
      rw [image, imprint_nil, wordsFrom, List.append_nil]
      simp only [addAll, carried, List.filterMap_nil, List.head?_nil, Option.or_none]
      rfl
  | cons value rest ih =>
      cases value with
      | word w =>
          obtain ⟨room, later⟩ := fits.word
          simp only [addAll, add, Draft.push, if_pos room, bind, Except.bind, ih later held]
          simp only [wordsFrom, image, spaceOf_word, List.append_assoc, List.singleton_append]
          rfl
      | cap c =>
          obtain ⟨free, later⟩ := fits.cap
          simp only [addAll, add, free, bind, Except.bind, ih later held]
          simp only [wordsFrom, image, spaceOf_cap, Option.some_or, Option.none_or]
          rfl
      | str s =>
          obtain ⟨view, rfl, nonzero, inside, room, later⟩ := fits.str
          have held' : ∀ other, some view = some other →
              ((m.putRun view d.offset (Utf8.encode s)).putRun view
                (d.offset + (Utf8.encode s).length) [0]).Holds other := fun other same =>
            ((held other same).putRun _ _ _).putRun _ _ _
          have written := add_str (t := t) (held view rfl) nonzero inside
          rw [Draft.push, if_pos room] at written
          have printed : ((m.putRun view d.offset (Utf8.encode s)).putRun view
                (d.offset + (Utf8.encode s).length) [0]).putRun view
                  (d.offset + (Utf8.encode s).length + 1) (image rest) =
              m.putRun view d.offset (image (.str s :: rest)) := by
            rw [image, Memory.putRun_append]
            rfl
          rw [addAll, written]
          simp only [Except.map, bind, Except.bind, ih later held', imprint, printed]
          simp only [wordsFrom, spaceOf_str, List.append_assoc, List.singleton_append,
            Nat.add_assoc]
          rfl

/-- Behind tidy values, a string that makes them untidy cannot be added. -/
theorem add_refused (tidy : Tidy page before) (fails : ¬ Tidy page (before ++ [.str s]))
    (offset : d.offset = spaceOf before) :
    add t page (.str s) d m = .ok (.error (refusal t page s), m) := by
  cases page with
  | none => rfl
  | some view =>
      by_cases zero : 0 ∈ Utf8.encode s
      · simp only [add, refusal, if_pos zero, List.contains_iff_mem.mpr zero, if_true]
      · have clean : ¬ (Utf8.encode s).contains 0 = true := by
          rwa [List.contains_iff_mem]
        have large : d.offset + (Utf8.encode s).length + 1 > view.bytes := by
          refine Nat.lt_of_not_le fun inside => fails ⟨?_, ?_⟩
          · intro s' mem
            rcases List.mem_append.mp mem with mem | mem
            · exact tidy.1 s' mem
            · cases List.mem_singleton.mp mem
              exact zero
          · refine fun _ _ => ⟨view, rfl, ?_⟩
            rw [spaceOf_append, spaceOf_str, ← offset]
            exact inside
        simp only [add, refusal, if_neg zero, if_neg clean, putString, if_pos large, bind,
          Except.bind]
        rfl

theorem tidy_nil (page : Option View) : Tidy page [] :=
  ⟨fun _ mem => absurd mem List.not_mem_nil, fun _ mem => absurd mem List.not_mem_nil⟩

/-- Only a string makes tidy values untidy. -/
theorem tidy_append_singleton {v : Value} (tidy : Tidy page before) (other : v.kind ≠ .str) :
    Tidy page (before ++ [v]) := by
  have old : ∀ s, .str s ∈ before ++ [v] → .str s ∈ before := by
    intro s mem
    rcases List.mem_append.mp mem with mem | mem
    · exact mem
    · rw [← List.mem_singleton.mp mem] at other
      exact absurd rfl other
  refine ⟨fun s mem => tidy.1 s (old s mem), fun s mem => ?_⟩
  have space : spaceOf [v] = 0 := by
    cases v with
    | str s => exact absurd rfl other
    | _ => rfl
  rw [spaceOf_append, space, Nat.add_zero]
  exact tidy.2 s (old s mem)

theorem exists_offends (t : MessageType) (untidy : ¬ Tidy page values) :
    ∃ e, Offends t page values e := by
  obtain ⟨before, v, after, split, tidy, fails⟩ := exists_first_failing (tidy_nil page) untidy
  cases v with
  | str s => exact ⟨_, before, s, after, split, tidy, fails, rfl⟩
  | word w => exact absurd (tidy_append_singleton (v := .word w) tidy nofun) fails
  | cap c => exact absurd (tidy_append_singleton (v := .cap c) tidy nofun) fails

theorem tidy_of_not_offends (t : MessageType) (free : ∀ e, ¬ Offends t page values e) :
    Tidy page values := by
  by_contra untidy
  obtain ⟨e, offends⟩ := exists_offends t untidy
  exact free e offends

/-! #### Whole messages -/

section Whole

variable (simple : Binding.fits (values.map Value.kind) = true)
  (held : ∀ view, page = some view → m.Holds view)

include simple held

/-- The message that holds tidy values, and the page. -/
theorem encode_eq (t : MessageType) (tag : UInt64) (tidy : Tidy page values) :
    encode t tag values page m = .ok (.ok {
      words := tag :: wordsFrom 0 values ++
        List.replicate (Binding.valueWords - wordsOf values) 0
      cap := carried values },
    imprint page m 0 (image values)) := by
  have fits : Fits page { words := [tag] } values := tidy.fits simple tag
  have words : ([tag] ++ wordsFrom 0 values).length = wordsOf values + 1 := by
    rw [List.length_append, length_wordsFrom, List.length_singleton, Nat.add_comm]
  have short : ([tag] ++ wordsFrom 0 values).length ≤ Letter.width := by
    have all := fits.words
    rw [List.length_singleton, Nat.add_comm] at all
    exact words ▸ all
  have rest : Letter.width - ([tag] ++ wordsFrom 0 values).length =
      Binding.valueWords - wordsOf values := by
    rw [words, Nat.add_comm, Binding.valueWords, Nat.sub_sub]
  rw [encode, addAll_eq fits held]
  simp only [bind, Except.bind, pure, Except.pure, Except.map, Draft.message,
    Letter.toList_fit_append short, rest, Option.none_or]
  rfl

/-- What is left in the page are the strings before the first that cannot be written. -/
theorem encode_offended (tag : UInt64) (offends : Offends t page values e) :
    ∃ before after, values = before ++ after ∧ Tidy page before ∧
      encode t tag values page m = .ok (.error e, imprint page m 0 (image before)) := by
  obtain ⟨before, s, after, rfl, tidy, fails, rfl⟩ := offends
  refine ⟨before, _, rfl, tidy, ?_⟩
  have fits : Fits page { words := [tag] } before := tidy.fits (fits_of_append simple) tag
  rw [encode, addAll_append, addAll_eq fits held]
  simp only [bind, Except.bind]
  rw [addAll, add_refused tidy fails (Nat.zero_add _)]
  rfl

end Whole

end Paged

end Conduit

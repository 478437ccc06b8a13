/-
# Process numbers in a text

Which texts are read as lists of process numbers is said here without a reader. A text is cut at
its commas, and what is empty does not count (`segments`). Every segment names one number: without
the white space at its ends (`Trimmed`) it is a numeral, digits that may have a plus sign
(`Numeral`). A reader takes exactly the texts whose segments name numbers below 2 ^ 64, as many as
announced, and gives these numbers in order (`reads_exactly`). The text that a list is written as
is such a text, and no number that is too large is cut down to one.
-/

import Conduit.Call.ProcessList
import Mathlib.Data.List.Forall2
import Mathlib.Data.List.TakeWhile

namespace Conduit.ProcessList

open Blank (isBlank trim)

/-! ### Texts and what they name -/

/-- The parts of a text between commas that are not empty. -/
def segments (text : String) : List (List Char) :=
  (text.toList.splitOn ',').filter fun segment => segment ≠ []

/-- The characters of `part` are those of `whole` without the white space at both ends. -/
structure Trimmed (whole part : List Char) : Prop where
  ends : ∃ before after, whole = before ++ part ++ after ∧
    (∀ c ∈ before, isBlank c = true) ∧ ∀ c ∈ after, isBlank c = true
  first : ∀ c ∈ part.head?, isBlank c = false
  last : ∀ c ∈ part.getLast?, isBlank c = false

/-- A number as it may be written: decimal digits, one at least, with or without a plus sign. -/
inductive Numeral : List Char → Nat → Prop where
  | digits {digits : List Char} : digits ≠ [] → (∀ c ∈ digits, c.isDigit = true) →
      Numeral digits (Nat.ofDigitChars 10 digits 0)
  | plus {digits : List Char} : digits ≠ [] → (∀ c ∈ digits, c.isDigit = true) →
      Numeral ('+' :: digits) (Nat.ofDigitChars 10 digits 0)

/-- A segment names a number. -/
def Names (segment : List Char) (n : Nat) : Prop := ∃ part, Trimmed segment part ∧ Numeral part n

/-- A list of numbers as it is written: each in decimal, followed by a comma. -/
def written (numbers : List UInt64) : String :=
  String.join (numbers.map fun n => toString n.toNat ++ ",")

variable {text digits part whole : List Char} {n m : Nat} {w : UInt64}

/-! ### Cutting at commas -/

theorem pieces_eq (text : List Char) : pieces text = text.splitOn ',' := by
  induction text with
  | nil => rfl
  | cons c rest ih =>
      rw [pieces, List.splitOn_cons_eq_if_modifyHead, ih]
      by_cases comma : c = ','
      · simp [comma]
      · cases cut : rest.splitOn ',' with
        | nil => exact absurd cut (List.splitOn_ne_nil _ _)
        | cons piece more => simp [comma]

/-! ### White space -/

/-- What is left of a text without the white space in front does not begin with any. -/
theorem isBlank_head?_dropWhile (whole : List Char) :
    ∀ c ∈ (whole.dropWhile isBlank).head?, isBlank c = false := by
  intro c head
  have first := List.head?_dropWhile_not isBlank whole
  rw [Option.mem_def] at head
  rw [head] at first
  exact first

theorem trimmed_trim (whole : List Char) : Trimmed whole (trim whole) := by
  let rest := whole.dropWhile isBlank
  let after := (rest.reverse.takeWhile isBlank).reverse
  have cut : rest = trim whole ++ after := by
    rw [trim, ← List.reverse_append, List.takeWhile_append_dropWhile, List.reverse_reverse]
  refine ⟨⟨whole.takeWhile isBlank, after, ?_, ?_, ?_⟩, ?_, ?_⟩
  · rw [List.append_assoc, ← cut, List.takeWhile_append_dropWhile]
  · exact fun c => List.mem_takeWhile_imp
  · exact fun c blank => List.mem_takeWhile_imp (List.mem_reverse.mp blank)
  · -- the text that is left begins as the text without the white space in front does
    intro c head
    apply isBlank_head?_dropWhile whole
    change c ∈ rest.head?
    rw [cut, List.head?_append_of_ne_nil]
    · exact head
    · rintro empty
      rw [empty] at head
      cases head
  · intro c last
    apply isBlank_head?_dropWhile rest.reverse
    rw [trim, List.getLast?_reverse] at last
    exact last

/-- White space in front of a text that begins with something else is what is dropped. -/
theorem dropWhile_isBlank {before : List Char} (blank : ∀ c ∈ before, isBlank c = true)
    (first : ∀ c ∈ part.head?, isBlank c = false) :
    (before ++ part).dropWhile isBlank = part := by
  rw [List.dropWhile_append_of_pos blank]
  cases part with
  | nil => rfl
  | cons c rest => rw [List.dropWhile_cons_of_neg (by simp [first c rfl])]

/-- Only one text is what is left without the white space at both ends. -/
theorem Trimmed.eq_trim (trimmed : Trimmed whole part) : part = trim whole := by
  obtain ⟨⟨before, after, rfl, blankBefore, blankAfter⟩, first, last⟩ := trimmed
  rw [trim, List.append_assoc]
  cases part with
  | nil =>
      have blank : ∀ c ∈ before ++ after, isBlank c = true := fun c mem =>
        (List.mem_append.mp mem).elim (blankBefore c) (blankAfter c)
      rw [List.nil_append, List.dropWhile_eq_nil_iff.mpr blank]
      rfl
  | cons c rest =>
      have firstRest : ∀ b ∈ (c :: rest ++ after).head?, isBlank b = false := first
      have lastRest : ∀ b ∈ (c :: rest).reverse.head?, isBlank b = false := by
        rwa [List.head?_reverse]
      rw [dropWhile_isBlank blankBefore firstRest, List.reverse_append,
        dropWhile_isBlank (fun b mem => blankAfter b (List.mem_reverse.mp mem)) lastRest,
        List.reverse_reverse]

/-! ### Numerals -/

theorem digit?_eq_some_iff {c : Char} {d : Nat} :
    digit? c = some d ↔ c.isDigit = true ∧ d = c.toNat - '0'.toNat := by
  rw [digit?, Option.ite_none_right_eq_some, Option.some.injEq, eq_comm (a := d)]

theorem readDigits_eq_some_iff : readDigits n digits = some m ↔
    (∀ c ∈ digits, c.isDigit = true) ∧ m = Nat.ofDigitChars 10 digits n := by
  induction digits generalizing n with
  | nil =>
      rw [readDigits, Option.some.injEq, Nat.ofDigitChars_nil]
      exact ⟨fun same => ⟨List.forall_mem_nil _, same.symm⟩, fun same => same.2.symm⟩
  | cons c rest ih =>
      rw [readDigits, List.forall_mem_cons, Nat.ofDigitChars_cons, Nat.mul_comm 10]
      simp only [Option.bind_eq_bind, Option.bind_eq_some_iff, digit?_eq_some_iff, ih]
      constructor
      · rintro ⟨d, ⟨digit, rfl⟩, rest, value⟩
        exact ⟨⟨digit, rest⟩, value⟩
      · rintro ⟨⟨digit, rest⟩, value⟩
        exact ⟨_, ⟨digit, rfl⟩, rest, value⟩

theorem readDecimal_eq_some_iff : readDecimal digits = some n ↔
    digits ≠ [] ∧ (∀ c ∈ digits, c.isDigit = true) ∧ n = Nat.ofDigitChars 10 digits 0 := by
  rw [readDecimal, Option.ite_none_left_eq_some, readDigits_eq_some_iff, List.isEmpty_iff]

/-- The digits of a number, behind the plus sign if there is one. -/
def unsigned : List Char → List Char
  | '+' :: rest => rest
  | text => text

theorem eq_unsigned (text : List Char) : text = '+' :: unsigned text ∨ text = unsigned text := by
  unfold unsigned
  split
  · exact .inl rfl
  · exact .inr rfl

theorem numeral_iff : Numeral text n ↔ readDecimal (unsigned text) = some n := by
  constructor
  · rintro (⟨some, decimal⟩ | ⟨some, decimal⟩)
    · have plain : text = unsigned text := by
        rcases eq_unsigned text with signed | plain
        · have sign : '+' ∈ text := signed ▸ List.mem_cons_self ..
          exact absurd (decimal '+' sign) (by decide)
        · exact plain
      rw [← plain]
      exact readDecimal_eq_some_iff.mpr ⟨some, decimal, rfl⟩
    · exact readDecimal_eq_some_iff.mpr ⟨some, decimal, rfl⟩
  · intro read
    obtain ⟨some, decimal, rfl⟩ := readDecimal_eq_some_iff.mp read
    rcases eq_unsigned text with signed | plain
    · rw [signed]
      exact .plus some decimal
    · rw [← plain] at some decimal ⊢
      exact .digits some decimal

/-- A text is a numeral for one number at most. -/
theorem Numeral.unique (first : Numeral text n) (second : Numeral text m) : n = m :=
  Option.some.inj ((numeral_iff.mp first).symm.trans (numeral_iff.mp second))

theorem readNumber_eq_some_iff : readNumber text = some w ↔ Numeral text w.toNat := by
  have read : readNumber text = (readDecimal (unsigned text)).bind fun n =>
      if n < UInt64.size then some (UInt64.ofNat n) else none := rfl
  rw [numeral_iff, read, Option.bind_eq_some_iff]
  constructor
  · rintro ⟨n, decimal, fits⟩
    rw [Option.ite_none_right_eq_some, Option.some.injEq] at fits
    obtain ⟨small, rfl⟩ := fits
    rw [decimal, UInt64.toNat_ofNat_of_lt' small]
  · intro decimal
    exact ⟨_, decimal, by rw [if_pos w.toNat_lt, UInt64.ofNat_toNat]⟩

/-! ### Lists of numbers -/

/-- What is read from a segment is the number that it names. -/
theorem names_iff {segment : List Char} :
    Names segment w.toNat ↔ readNumber (trim segment) = some w := by
  rw [readNumber_eq_some_iff]
  constructor
  · rintro ⟨part, trimmed, numeral⟩
    rwa [← trimmed.eq_trim]
  · exact fun numeral => ⟨_, trimmed_trim segment, numeral⟩

/-- A segment names one number at most. -/
theorem Names.unique {segment : List Char} (first : Names segment n) (second : Names segment m) :
    n = m := by
  obtain ⟨part, trimmed, numeral⟩ := first
  obtain ⟨part', trimmed', numeral'⟩ := second
  rw [trimmed.eq_trim] at numeral
  rw [trimmed'.eq_trim] at numeral'
  exact numeral.unique numeral'

/-- The elements of a list are mapped one by one. -/
theorem mapM_eq_some_iff {α β : Type} {f : α → Option β} {xs : List α} {ys : List β} :
    xs.mapM f = some ys ↔ List.Forall₂ (fun x y => f x = some y) xs ys := by
  induction xs generalizing ys with
  | nil =>
      rw [List.mapM_nil, List.forall₂_nil_left_iff]
      exact ⟨fun same => (Option.some.inj same).symm, fun same => same ▸ rfl⟩
  | cons x xs ih =>
      rw [List.mapM_cons, List.forall₂_cons_left_iff]
      simp only [Option.bind_eq_bind, Option.bind_eq_some_iff, ih]
      constructor
      · rintro ⟨y, first, rest, others, same⟩
        exact ⟨y, rest, first, others, (Option.some.inj same).symm⟩
      · rintro ⟨y, rest, first, others, rfl⟩
        exact ⟨y, first, rest, others, rfl⟩

theorem read_eq_some_iff {text : String} {count : UInt64} {numbers : List UInt64} :
    read text count = some numbers ↔
      List.Forall₂ (fun segment number => Names segment number.toNat) (segments text) numbers ∧
        numbers.length = count.toNat := by
  have same : (text.toList.splitOn ',').filter (!·.isEmpty) = segments text :=
    List.filter_congr fun piece _ => by cases piece <;> rfl
  rw [read, pieces_eq, same, Option.bind_eq_bind, Option.bind_eq_some_iff]
  simp only [names_iff, ← mapM_eq_some_iff, Option.ite_none_right_eq_some, Option.some.injEq]
  constructor
  · rintro ⟨numbers, named, many, rfl⟩
    exact ⟨named, many⟩
  · rintro ⟨named, many⟩
    exact ⟨numbers, named, many, rfl⟩

/-- No text is read in which some segment names a number that is too large. -/
theorem read_eq_none_of_large {text : String} {segment : List Char}
    (mem : segment ∈ segments text) (names : Names segment n) (large : UInt64.size ≤ n)
    (count : UInt64) : read text count = none := by
  cases taken : read text count with
  | none => rfl
  | some numbers =>
      obtain ⟨named, -⟩ := read_eq_some_iff.mp taken
      obtain ⟨many, named⟩ := List.forall₂_iff_get.mp named
      obtain ⟨i, rfl⟩ := List.get_of_mem mem
      have same := names.unique (named i i.isLt (many ▸ i.isLt))
      have small := (numbers.get ⟨i, many ▸ i.isLt⟩).toNat_lt_size
      omega

/-! ### Written lists -/

theorem comma_notMem_toDigits (n : Nat) : ',' ∉ Nat.toDigits 10 n := fun mem =>
  absurd (Nat.isDigit_of_mem_toDigits (by decide) (by decide) mem) (by decide)

theorem segments_written (numbers : List UInt64) :
    segments (written numbers) = numbers.map fun n => Nat.toDigits 10 n.toNat := by
  induction numbers with
  | nil => rfl
  | cons n rest ih =>
      have characters : (written (n :: rest)).toList =
          Nat.toDigits 10 n.toNat ++ ',' :: (written rest).toList := by
        simp [written]
      rw [segments, characters,
        List.splitOn_append_cons_self_of_not_mem (comma_notMem_toDigits n.toNat)]
      rw [List.filter_cons_of_pos (by simp [Nat.toDigits_ne_nil]), List.map_cons, ← ih]
      rfl

theorem isBlank_of_isDigit {c : Char} (digit : c.isDigit = true) : isBlank c = false := by
  simp only [Char.isDigit, Bool.and_eq_true, decide_eq_true_eq] at digit
  have low : 48 ≤ c.toNat := digit.1
  have high : c.toNat ≤ 57 := digit.2
  simp only [isBlank, Blank.ranges, List.any_cons, List.any_nil, Bool.or_eq_false_iff,
    Bool.and_eq_false_iff, decide_eq_false_iff_not, and_true]
  omega

/-- A number is named by its own digits. -/
theorem names_toDigits (n : Nat) : Names (Nat.toDigits 10 n) n := by
  have decimal : ∀ c ∈ Nat.toDigits 10 n, c.isDigit = true := fun c =>
    Nat.isDigit_of_mem_toDigits (by decide) (by decide)
  have numeral := Numeral.digits Nat.toDigits_ne_nil decimal
  rw [Nat.ofDigitChars_ten_toDigits] at numeral
  refine ⟨_, ⟨⟨[], [], (List.append_nil _).symm, ?_, ?_⟩, ?_, ?_⟩, numeral⟩
  · exact List.forall_mem_nil _
  · exact List.forall_mem_nil _
  · exact fun c first => isBlank_of_isDigit (decimal c (List.mem_of_mem_head? first))
  · exact fun c last => isBlank_of_isDigit (decimal c (List.mem_of_mem_getLast? last))

theorem read_written (numbers : List UInt64) (count : UInt64) :
    read (written numbers) count =
      if numbers.length = count.toNat then some numbers else none := by
  by_cases many : numbers.length = count.toNat
  · rw [if_pos many, read_eq_some_iff, segments_written, List.forall₂_map_left_iff,
      List.forall₂_same]
    exact ⟨fun number _ => names_toDigits number.toNat, many⟩
  · rw [if_neg many]
    cases taken : read (written numbers) count with
    | none => rfl
    | some others =>
        obtain ⟨named, same⟩ := read_eq_some_iff.mp taken
        have length := named.length_eq
        rw [segments_written, List.length_map] at length
        exact absurd (length.trans same) many

/-- A text is read exactly if each of its segments names a number of 64 bits and there are as many
as announced; what is read are these numbers in order. The text of a written list is read as this
list and announced as nothing else, and a number that is too large is never cut down. -/
theorem reads_exactly (text : String) (count : UInt64) :
    (∀ numbers, read text count = some numbers ↔
      List.Forall₂ (fun segment number => Names segment number.toNat) (segments text) numbers ∧
        numbers.length = count.toNat) ∧
    (∀ numbers, read (written numbers) count =
      if numbers.length = count.toNat then some numbers else none) ∧
    ∀ segment ∈ segments text, ∀ n, Names segment n → UInt64.size ≤ n → read text count = none :=
  ⟨fun _ => read_eq_some_iff, fun numbers => read_written numbers count,
    fun _ mem _ names large => read_eq_none_of_large mem names large count⟩

/-- White space, plus signs and empty segments do not count. -/
example : read "1, +2 ,,	30" 3 = some [1, 2, 30] := by decide

end Conduit.ProcessList

/-
# Machine words and slices with every step checked

The models speak of natural numbers and lists, on which a subtraction stops at zero and a range
that is too long is cut. A program on machine words panics there instead, unless it asks first
whether the result exists. These are the steps with the check: `plus`, `minus` and the others
panic, `plus?` and `minus?` give nothing.
-/

import Conduit.Panic

namespace Conduit.Checked

variable {α : Type}

/-- The numbers that a machine word can hold. -/
def limit : Nat := 0x10000000000000000

/-- A difference, which must not be negative. -/
def minus (a b : Nat) : Except Panic Nat := if b ≤ a then .ok (a - b) else .error .outOfRange

/-- A sum, which must fit a machine word. -/
def plus (a b : Nat) : Except Panic Nat := if a + b < limit then .ok (a + b) else .error .outOfRange

/-- A product, which must fit a machine word. -/
def times (a b : Nat) : Except Panic Nat := if a * b < limit then .ok (a * b) else .error .outOfRange

/-- A difference, if it is not negative. -/
def minus? (a b : Nat) : Option Nat := if b ≤ a then some (a - b) else none

/-- A sum, if it fits a machine word. -/
def plus? (a b : Nat) : Option Nat := if a + b < limit then some (a + b) else none

/-- A remainder, whose divisor must not be zero. -/
def modulo (a n : Nat) : Except Panic Nat := if n = 0 then .error .outOfRange else .ok (a % n)

/-- A quotient, whose divisor must not be zero. -/
def divide (a n : Nat) : Except Panic Nat := if n = 0 then .error .outOfRange else .ok (a / n)

/-- The elements of a range, which must lie inside. -/
def slice (xs : List α) (start stop : Nat) : Except Panic (List α) :=
  if start ≤ stop ∧ stop ≤ xs.length then .ok ((xs.take stop).drop start) else .error .outOfRange

/-- The list with a range replaced, which must lie inside and be as long as what replaces it. -/
def paste (xs : List α) (start stop : Nat) (ys : List α) : Except Panic (List α) :=
  if start ≤ stop ∧ stop ≤ xs.length ∧ ys.length = stop - start then
    .ok (xs.take start ++ ys ++ xs.drop stop)
  else .error .outOfRange

theorem minus_ok {a b : Nat} (enough : b ≤ a) : minus a b = .ok (a - b) := if_pos enough

theorem plus_ok {a b : Nat} (small : a + b < limit) : plus a b = .ok (a + b) := if_pos small

theorem times_ok {a b : Nat} (small : a * b < limit) : times a b = .ok (a * b) := if_pos small

theorem modulo_ok {a n : Nat} (pos : 0 < n) : modulo a n = .ok (a % n) :=
  if_neg (Nat.ne_of_gt pos)

theorem divide_ok {a n : Nat} (pos : 0 < n) : divide a n = .ok (a / n) :=
  if_neg (Nat.ne_of_gt pos)

theorem slice_ok {xs : List α} {start stop : Nat} (order : start ≤ stop) (inside : stop ≤ xs.length) :
    slice xs start stop = .ok ((xs.take stop).drop start) := if_pos ⟨order, inside⟩

theorem paste_ok {xs ys : List α} {start stop : Nat} (inside : stop ≤ xs.length)
    (length : start + ys.length = stop) :
    paste xs start stop ys = .ok (xs.take start ++ ys ++ xs.drop stop) :=
  if_pos ⟨by omega, inside, by omega⟩

end Conduit.Checked

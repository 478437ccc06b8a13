/-
# Lists of process numbers

A list of process numbers is written as decimal numbers, each followed by a
comma. Readers are lenient: empty pieces between commas do not count, white
space around a number is ignored, and a number may have a plus sign. They are
strict about the numbers: each must be below 2 ^ 64, and there must be as many as
announced.
-/

import Conduit.Text.Blank

namespace Conduit.ProcessList

/-- The pieces of a text between commas. -/
def pieces : List Char → List (List Char)
  | [] => [[]]
  | c :: rest =>
      if c = ',' then [] :: pieces rest
      else
        match pieces rest with
        | [] => [[c]]
        | piece :: more => (c :: piece) :: more

/-- The value of a decimal digit. -/
def digit? (c : Char) : Option Nat := if c.isDigit then some (c.toNat - '0'.toNat) else none

/-- The number that digits continue. -/
def readDigits : Nat → List Char → Option Nat
  | n, [] => some n
  | n, c :: rest => do readDigits (n * 10 + (← digit? c)) rest

/-- The number with these digits, of which there is at least one. -/
def readDecimal (digits : List Char) : Option Nat :=
  if digits.isEmpty then none else readDigits 0 digits

/-- A number of at most 64 bits, with or without a plus sign. -/
def readNumber (text : List Char) : Option UInt64 := do
  let n ← readDecimal (match text with
    | '+' :: rest => rest
    | text => text)
  if n < UInt64.size then some (UInt64.ofNat n) else none

/-- The numbers in a text, if it holds exactly `count`. -/
def read (text : String) (count : UInt64) : Option (List UInt64) := do
  let numbers ← ((pieces text.toList).filter (!·.isEmpty)).mapM fun piece =>
    readNumber (Blank.trim piece)
  if numbers.length = count.toNat then some numbers else none

end Conduit.ProcessList

/-
# Numbers, truth values, dates and times

The values that are written as one run of letters, digits and a few marks. Each
function reads a whole run or refuses it.
-/

import Conduit.Toml.Value

namespace Conduit.Toml

/-- The value of a digit, in bases up to sixteen. -/
def digit? (c : Char) : Option Nat :=
  if '0' ≤ c ∧ c ≤ '9' then some (c.toNat - '0'.toNat)
  else if 'a' ≤ c ∧ c ≤ 'f' then some (c.toNat - 'a'.toNat + 10)
  else if 'A' ≤ c ∧ c ≤ 'F' then some (c.toNat - 'A'.toNat + 10)
  else none

/-- The digits of a number in a base, given that one digit was read. A single
underscore may stand between two digits. -/
def moreDigits (base : Nat) : List Char → Option (List Nat)
  | [] => some []
  | '_' :: c :: rest => do
      let d ← digit? c
      if d < base then return d :: (← moreDigits base rest) else none
  | c :: rest => do
      let d ← digit? c
      if d < base then return d :: (← moreDigits base rest) else none

/-- The digits of a number in a base, of which there is at least one. -/
def digits (base : Nat) : List Char → Option (List Nat)
  | [] => none
  | c :: rest => do
      let d ← digit? c
      if d < base then return d :: (← moreDigits base rest) else none

/-- The number with these digits. -/
def number (base : Nat) (ds : List Nat) : Nat := ds.foldl (fun n d => n * base + d) 0

/-- The digits of a decimal number, which does not begin with a zero unless it is
zero. -/
def plainDigits (cs : List Char) : Option (List Nat) := do
  let ds ← digits 10 cs
  if ds.head? = some 0 ∧ ds.length ≠ 1 then none else some ds

/-- Splits off a sign; tells whether it is a minus. -/
def sign : List Char → Bool × List Char
  | '+' :: rest => (false, rest)
  | '-' :: rest => (true, rest)
  | cs => (false, cs)

/-- An integer that fits 64 bits with a sign. -/
def signed64 (n : Int) : Option Int :=
  if -0x8000000000000000 ≤ n ∧ n < 0x8000000000000000 then some n else none

/-- An integer: decimal with or without a sign, or in another base without one. -/
def integer? : List Char → Option Int
  | '0' :: 'x' :: rest => do signed64 (number 16 (← digits 16 rest))
  | '0' :: 'o' :: rest => do signed64 (number 8 (← digits 8 rest))
  | '0' :: 'b' :: rest => do signed64 (number 2 (← digits 2 rest))
  | cs => do
      let (negative, cs) := sign cs
      let n : Int := number 10 (← plainDigits cs)
      signed64 (if negative then -n else n)

/-- Tells whether digits times a power of ten round to infinity in double
precision, that is, reach half a step above the greatest finite number. -/
def overflows (ds : List Nat) (exponent : Int) : Bool :=
  let n := number 10 ds
  let bound := Nat.pow 2 1024 - Nat.pow 2 970
  if n = 0 then false
  else if exponent > 400 then true
  else if 0 ≤ exponent then bound ≤ n * Nat.pow 10 exponent.toNat
  else if exponent + ds.length < 0 then false
  else bound * Nat.pow 10 (-exponent).toNat ≤ n

/-- A real number with its parts: the digits before and after the point, and the
power of ten. Beyond the greatest positive number there is none. -/
def realOf (negative : Bool) (whole fraction : List Nat) (power : Int) : Option Real :=
  let ds := whole ++ fraction
  let exponent := power - fraction.length
  if !negative && overflows ds exponent then none
  else some (.finite negative (number 10 ds) exponent)

/-- The power of ten behind a real number. -/
def power? (cs : List Char) : Option Int := do
  let (negative, cs) := sign cs
  let n : Int := number 10 (← digits 10 cs)
  return if negative then -n else n

/-- Tells whether a character introduces the power of ten. -/
def isPowerMark (c : Char) : Bool := c = 'e' || c = 'E'

/-- A real number: with a fraction, a power of ten, or both; or infinity, or not a
number. -/
def real? (cs : List Char) : Option Real :=
  let (negative, body) := sign cs
  if body = ['i', 'n', 'f'] then some (.infinite negative)
  else if body = ['n', 'a', 'n'] then some .nan
  else do
    let mantissa := body.takeWhile (!isPowerMark ·)
    let tail := body.dropWhile (!isPowerMark ·)
    let power ← match tail with
      | [] => some 0
      | _ :: p => power? p
    let whole ← plainDigits (mantissa.takeWhile (· ≠ '.'))
    match mantissa.dropWhile (· ≠ '.') with
    | [] => if tail.isEmpty then none else realOf negative whole [] power
    | _ :: fraction => realOf negative whole (← digits 10 fraction) power

/-! ### Dates and times -/

/-- The number that exactly `count` digits make. -/
def fixed? (count : Nat) (cs : List Char) : Option Nat :=
  if cs.length = count ∧ cs.all Char.isDigit then (cs.mapM digit?).map (number 10) else none

/-- The number of days of a month. -/
def daysIn (year month : Nat) : Nat :=
  if month = 2 then
    if year % 4 = 0 ∧ (year % 100 ≠ 0 ∨ year % 400 = 0) then 29 else 28
  else if month = 4 ∨ month = 6 ∨ month = 9 ∨ month = 11 then 30
  else 31

/-- Tells whether this is a date of the calendar. -/
def isDate (cs : List Char) : Bool :=
  match fixed? 4 (cs.take 4), fixed? 2 ((cs.drop 5).take 2), fixed? 2 (cs.drop 8) with
  | some year, some month, some day =>
      cs[4]? = some '-' && cs[7]? = some '-' && 1 ≤ month && month ≤ 12 && 1 ≤ day
        && day ≤ daysIn year month
  | _, _, _ => false

/-- Tells whether this is an hour and a minute. -/
def isHourMinute (cs : List Char) : Bool :=
  match fixed? 2 (cs.take 2), fixed? 2 (cs.drop 3) with
  | some hour, some minute => cs[2]? = some ':' && hour ≤ 23 && minute ≤ 59
  | _, _ => false

/-- Tells whether this is a time of the day; a minute may have a leap second, and a
second may have a fraction. -/
def isTime (cs : List Char) : Bool :=
  let fraction := cs.drop 8
  isHourMinute (cs.take 5) && cs[5]? = some ':'
    && (match fixed? 2 ((cs.drop 6).take 2) with
      | some second => second ≤ 60
      | none => false)
    && (fraction.isEmpty
      || (fraction.head? = some '.' && 2 ≤ fraction.length && fraction.tail.all Char.isDigit))

/-- Tells whether a character begins the distance to universal time. -/
def isOffsetMark (c : Char) : Bool := c = 'Z' || c = 'z' || c = '+' || c = '-'

/-- Tells whether this is nothing, or a distance to universal time. -/
def isOffset : List Char → Bool
  | [] => true
  | [c] => c = 'Z' || c = 'z'
  | c :: rest => (c = '+' || c = '-') && isHourMinute rest

/-- Tells whether this is a time of the day with or without a distance to universal
time. -/
def isZonedTime (cs : List Char) : Bool :=
  isTime (cs.takeWhile (!isOffsetMark ·)) && isOffset (cs.dropWhile (!isOffsetMark ·))

/-- Tells whether a character stands between a date and a time. -/
def isDateEnd (c : Char) : Bool := c = 'T' || c = 't' || c = ' '

/-- Tells whether this is a date, a time, or a date with a time. -/
def isMoment (cs : List Char) : Bool :=
  match cs.drop 10 with
  | [] => isDate cs || isTime cs
  | c :: time => (isDate (cs.take 10) && isDateEnd c && isZonedTime time) || isTime cs

/-- The value that a run of characters is. -/
def scalar? (cs : List Char) : Option Value :=
  if cs = ['t', 'r', 'u', 'e'] then some (.boolean true)
  else if cs = ['f', 'a', 'l', 's', 'e'] then some (.boolean false)
  else if isMoment cs then some (.moment (String.ofList cs))
  else match integer? cs with
    | some n => some (.integer n)
    | none => (real? cs).map .real

end Conduit.Toml

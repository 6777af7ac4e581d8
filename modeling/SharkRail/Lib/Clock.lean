import Mathlib

/-!
# Instants and their text

An instant is a number of microseconds since the Unix epoch, UTC. `isoformat` writes one as `datetime.isoformat` does: the
fraction is left out when it is zero. The range of `datetime` is what arithmetic on instants may overflow.
-/

/-- Microseconds since 1970-01-01T00:00:00 UTC. -/
abbrev Instant := Int

namespace Instant

/-- Microseconds in a second. -/
def second : Int := 1000000

/-- 0001-01-01T00:00:00, the least value of `datetime`. -/
def datetimeMin : Instant := -62135596800 * second

/-- 9999-12-31T23:59:59.999999, the greatest value of `datetime`. -/
def datetimeMax : Instant := 253402300800 * second - 1

/-- The days a `timedelta` may have, in either direction. -/
def timedeltaDays : Int := 999999999

/-- `instant - timedelta(seconds=n)`, `none` where it raises `OverflowError`. -/
def minusSeconds (t : Instant) (n : Int) : Option Instant :=
  if -timedeltaDays ≤ n / 86400 ∧ n / 86400 ≤ timedeltaDays ∧
      datetimeMin ≤ t - n * second ∧ t - n * second ≤ datetimeMax then
    some (t - n * second)
  else none

/-- The `width` least significant decimal digits, most significant first. -/
def digits : Nat → Nat → List Char
  | 0, _ => []
  | width + 1, n => digits width (n / 10) ++ [Char.ofNat (48 + n % 10)]

/-- Year, month and day of a day counted from the Unix epoch, in the proleptic Gregorian calendar: years are counted from
March, in eras of 400 years. -/
def civil (day : Int) : Nat × Nat × Nat :=
  let z := day + 719468
  let era := z / 146097
  let doe := (z - era * 146097).toNat
  let yoe := (doe - doe / 1460 + doe / 36524 - doe / 146096) / 365
  let doy := doe - (365 * yoe + yoe / 4 - yoe / 100)
  let mp := (5 * doy + 2) / 153
  let month := if mp < 10 then mp + 3 else mp - 9
  let year := (era * 400).toNat + yoe + (if month ≤ 2 then 1 else 0)
  (year, month, doy - (153 * mp + 2) / 5 + 1)

/-- `datetime.isoformat()` of a UTC instant. -/
def isoformat (t : Instant) : List Char :=
  let (year, month, day) := civil (t / (86400 * second))
  let ofDay := (t % (86400 * second)).toNat
  let s := ofDay / 1000000
  let fraction := if ofDay % 1000000 = 0 then [] else '.' :: digits 6 (ofDay % 1000000)
  digits 4 year ++ '-' :: digits 2 month ++ '-' :: digits 2 day ++ 'T' :: digits 2 (s / 3600) ++
    ':' :: digits 2 (s / 60 % 60) ++ ':' :: digits 2 (s % 60) ++ fraction ++ "+00:00".toList

example : isoformat 1700000000000001 = "2023-11-14T22:13:20.000001+00:00".toList := by decide +kernel

example : isoformat 951782400000000 = "2000-02-29T00:00:00+00:00".toList := by decide +kernel

@[simp] theorem length_digits (width n : Nat) : (digits width n).length = width := by
  induction width generalizing n with
  | zero => rfl
  | succ width ih => simp [digits, ih]

/-- The text of an instant has 25 bytes, or 32 with a fraction. -/
theorem length_isoformat (t : Instant) : (isoformat t).length = 25 ∨ (isoformat t).length = 32 := by
  simp only [isoformat, List.length_append, List.length_cons, length_digits]
  split
  · exact Or.inl rfl
  · exact Or.inr (by simp only [List.length_cons, length_digits]; rfl)

end Instant

import ApiContract.Calendar.Day

/-!
Instants in UTC with a resolution of nanoseconds, and their text in RFC 3339.

A leap second is told as second 59 of its minute with `nanosPerSecond` nanoseconds or more.
-/

namespace ApiContract.Calendar

def nanosPerSecond : Nat := 1000000000

def nanosPerMilli : Nat := 1000000

/-- Seconds since 1970-01-01T00:00:00Z and nanoseconds within the second. -/
structure Instant where
  seconds : Int
  nanos : Nat
  valid : nanos < nanosPerSecond ∨ nanos < 2 * nanosPerSecond ∧ seconds % 60 = 59
deriving DecidableEq

namespace Instant

def ofParts? (seconds : Int) (nanos : Nat) : Option Instant :=
  if h : nanos < nanosPerSecond ∨ nanos < 2 * nanosPerSecond ∧ seconds % 60 = 59 then
    some ⟨seconds, nanos, h⟩
  else none

instance : Inhabited Instant := ⟨⟨0, 0, by decide⟩⟩

def padded (width n : Nat) : List Char :=
  let ds := Nat.toDigits 10 n
  List.replicate (width - ds.length) '0' ++ ds

/-- Years from 0 to 9999 have four digits; others carry a sign. -/
def yearText (year : Int) : List Char :=
  if 0 ≤ year ∧ year ≤ 9999 then padded 4 year.toNat
  else (if year < 0 then '-' else '+') :: padded 4 year.natAbs

/-- RFC 3339 text in UTC with milliseconds; finer digits are cut off. -/
def text (t : Instant) : String :=
  let date := Date.ofDayNumber (t.seconds / 86400)
  let clock := (t.seconds % 86400).toNat
  let leap := nanosPerSecond ≤ t.nanos
  let second := clock % 60 + if leap then 1 else 0
  let millis := t.nanos % nanosPerSecond / nanosPerMilli
  String.ofList (yearText date.year ++ '-' :: padded 2 date.month ++ '-' :: padded 2 date.day ++
    'T' :: padded 2 (clock / 3600) ++ ':' :: padded 2 (clock / 60 % 60) ++
    ':' :: padded 2 second ++ '.' :: padded 3 millis ++ ['Z'])

end Instant

end ApiContract.Calendar

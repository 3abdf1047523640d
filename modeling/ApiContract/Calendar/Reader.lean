import ApiContract.Calendar.Instant
import ApiContract.Number.Decimal
import ApiContract.Text.Blank

/-!
Reading dates: RFC 3339 date-times, date-times without an offset (taken as UTC) and plain dates
(midnight UTC).

RFC 3339 fixes the width of every field. The other two forms are lenient: a field has at most its
usual number of digits, blanks may stand before it, and a year with a sign has any length.
-/

namespace ApiContract.Calendar

def digitsWithin? (least most : Nat) (cs : List Char) : Option (Nat × List Char) :=
  let ds := (cs.take most).takeWhile Char.isDigit
  if ds.length < least then none
  else some (Decimal.ofDigits ds, cs.drop ds.length)

def mark? (c : Char) : List Char → Option (List Char)
  | d :: cs => if d = c then some cs else none
  | [] => none

/-- Nine digits count as nanoseconds, fewer are scaled, more are skipped. -/
def fraction? (cs : List Char) : Option (Nat × List Char) :=
  match cs with
  | '.' :: rest =>
    let ds := (rest.take 9).takeWhile Char.isDigit
    if ds = [] then none
    else some (Decimal.ofDigits ds * Nat.pow 10 (9 - ds.length),
      (rest.drop ds.length).dropWhile Char.isDigit)
  | _ => some (0, cs)

/-- A time of day; second 60 is a leap second. -/
structure Clock where
  hour : Nat
  minute : Nat
  second : Nat
  nanos : Nat

def leastYear : Int := -262143

def greatestYear : Int := 262142

/-- The instant of a date and a clock that are `offset` seconds ahead of UTC. -/
def instant? (date : Date) (clock : Clock) (offset : Int) : Option Instant :=
  if date.Valid ∧ leastYear ≤ date.year ∧ date.year ≤ greatestYear ∧
      clock.hour < 24 ∧ clock.minute < 60 ∧ clock.second ≤ 60 then
    let leap := clock.second = 60
    let second := if leap then 59 else clock.second
    Instant.ofParts?
      (date.dayNumber * 86400 + (clock.hour * 3600 + clock.minute * 60 + second : Nat) - offset)
      (clock.nanos + if leap then nanosPerSecond else 0)
  else none

/-- An offset from UTC in seconds: `Z`, or a sign with hours and minutes. -/
def offset? (cs : List Char) : Option (Int × List Char) :=
  match cs with
  | [] => none
  | c :: rest =>
    if c = 'Z' ∨ c = 'z' then some (0, rest)
    else if c = '+' ∨ c = '-' ∨ c = '\u2212' then do
      let (hours, rest) ← digitsWithin? 2 2 rest
      let rest ← mark? ':' rest
      let (minutes, rest) ← digitsWithin? 2 2 rest
      if 24 ≤ hours ∨ 60 ≤ minutes then none
      else
        let size : Int := (hours * 3600 + minutes * 60 : Nat)
        some (if c = '+' then size else -size, rest)
    else none

/-- A date-time of RFC 3339; `T` may be lower case or a space. -/
def ofRfc3339? (cs : List Char) : Option Instant := do
  let (year, cs) ← digitsWithin? 4 4 cs
  let cs ← mark? '-' cs
  let (month, cs) ← digitsWithin? 2 2 cs
  let cs ← mark? '-' cs
  let (day, cs) ← digitsWithin? 2 2 cs
  let cs ← match cs with
    | c :: rest => if c = 'T' ∨ c = 't' ∨ c = ' ' then some rest else none
    | [] => none
  let (hour, cs) ← digitsWithin? 2 2 cs
  let cs ← mark? ':' cs
  let (minute, cs) ← digitsWithin? 2 2 cs
  let cs ← mark? ':' cs
  let (second, cs) ← digitsWithin? 2 2 cs
  let (nanos, cs) ← fraction? cs
  let (offset, cs) ← offset? cs
  if cs ≠ [] then none
  else instant? ⟨year, month, day⟩ ⟨hour, minute, second, nanos⟩ offset

/-- A year: four digits at most, or any number of them after a sign. -/
def year? (cs : List Char) : Option (Int × List Char) :=
  match Text.trimStart cs with
  | '+' :: rest => (digitsWithin? 1 rest.length rest).map fun (n, tail) => ((n : Int), tail)
  | '-' :: rest => (digitsWithin? 1 rest.length rest).map fun (n, tail) => (-(n : Int), tail)
  | other => (digitsWithin? 1 4 other).map fun (n, tail) => ((n : Int), tail)

def field? (cs : List Char) : Option (Nat × List Char) := digitsWithin? 1 2 (Text.trimStart cs)

def date? (cs : List Char) : Option (Date × List Char) := do
  let (year, cs) ← year? cs
  let cs ← mark? '-' cs
  let (month, cs) ← field? cs
  let cs ← mark? '-' cs
  let (day, cs) ← field? cs
  return (⟨year, month, day⟩, cs)

def clock? (cs : List Char) : Option (Clock × List Char) := do
  let (hour, cs) ← field? cs
  let cs ← mark? ':' cs
  let (minute, cs) ← field? cs
  let cs ← mark? ':' cs
  let (second, cs) ← field? cs
  let (nanos, cs) ← fraction? cs
  return (⟨hour, minute, second, nanos⟩, cs)

def ofMarkedDateTime? (cs : List Char) : Option Instant := do
  let (date, cs) ← date? cs
  let cs ← mark? 'T' cs
  let (clock, cs) ← clock? cs
  if cs ≠ [] then none else instant? date clock 0

/-- A date and a time of day with blanks, or nothing, between them. -/
def ofSpacedDateTime? (cs : List Char) : Option Instant := do
  let (date, cs) ← date? cs
  let (clock, cs) ← clock? (Text.trimStart cs)
  if cs ≠ [] then none else instant? date clock 0

def ofDate? (cs : List Char) : Option Instant := do
  let (date, cs) ← date? cs
  if cs ≠ [] then none else instant? date ⟨0, 0, 0, 0⟩ 0

/-- Reads a text without regard to blanks around it, the forms being tried in turn. -/
def Instant.ofText? (text : String) : Option Instant :=
  let cs := Text.trim text.toList
  ofRfc3339? cs <|> ofMarkedDateTime? cs <|> ofSpacedDateTime? cs <|> ofDate? cs

end ApiContract.Calendar

import ApiContract.Unicode.CodeSet

/-!
Tables of code points as text.

A number is written in digits of five bits, the lowest first; every digit but the last is marked as
one to be continued. The 64 digits are `0-9A-Za-z._`, the upper half being the marked ones.
-/

namespace ApiContract.Unicode

def digitValue (c : Char) : Nat :=
  if c ≤ '9' then if c = '.' then 62 else c.toNat - '0'.toNat
  else if c ≤ 'Z' then c.toNat - 'A'.toNat + 10
  else if c = '_' then 63
  else c.toNat - 'a'.toNat + 36

def numbersFrom (value weight : Nat) : List Char → List Nat
  | [] => []
  | c :: cs =>
    let d := digitValue c
    if d < 32 then (value + d * weight) :: numbersFrom 0 1 cs
    else numbersFrom (value + (d - 32) * weight) (weight * 32) cs

def numbers (texts : List String) : List Nat :=
  numbersFrom 0 1 (texts.flatMap String.toList)

/-- A run of code points with one value. -/
structure Run where
  start : Nat
  length : Nat
  value : Nat

/-- Reads lengths and values of adjacent runs. -/
def Run.ofNumbers (start : Nat) : List Nat → List Run
  | length :: value :: rest => ⟨start, length, value⟩ :: Run.ofNumbers (start + length) rest
  | _ => []

namespace CodeSet

def ofRuns (runs : List Run) (test : Nat → Bool) : CodeSet :=
  ofRanges (runs.filterMap fun r =>
    if test r.value then some (r.start, r.start + r.length - 1) else none)

/-- Reads distances and lengths of runs. -/
def ofGaps (start : Nat) (ns : List Nat) : CodeSet := ⟨go start ns⟩
where
  go (start : Nat) : List Nat → List (Nat × Nat)
    | gap :: length :: rest =>
      (start + gap, start + gap + length - 1) :: go (start + gap + length) rest
    | _ => []

end CodeSet

end ApiContract.Unicode

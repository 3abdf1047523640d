/-!
Binary64 numbers, kept as a sign and a magnitude on the grid of IEEE 754.

A magnitude is the 63-bit field of exponent and fraction. Read as a natural number it grows with
the number it stands for, so `units` (the exact value, counted in the least subnormal `2 ^ -1074`)
turns comparison, wholeness and rounding into integer arithmetic.
-/

namespace ApiContract

/-- A binary64 number: a sign and a position on the grid of magnitudes. -/
structure Binary64 where
  negative : Bool
  magnitude : Nat
  bounded : magnitude < 0x8000000000000000
deriving DecidableEq

namespace Binary64

/-- One step of the exponent field: the fraction below it has 52 bits. -/
def binade : Nat := 0x10000000000000

/-- The magnitude of infinity; what lies above it is not a number. -/
def infinite : Nat := 2047 * binade

/-- The least magnitude is `2 ^ -1074`; a whole one is this many of it. -/
def unitsPerOne : Nat := 1 <<< 1074

def unitsOf (magnitude : Nat) : Nat :=
  if magnitude < binade then magnitude
  else (binade + magnitude % binade) * Nat.pow 2 (magnitude / binade - 1)

/-- A signed magnitude; one beyond infinity stays at infinity. -/
def ofMagnitude (negative : Bool) (magnitude : Nat) : Binary64 :=
  if h : magnitude ≤ infinite then
    ⟨negative, magnitude, Nat.lt_of_le_of_lt h (by decide)⟩
  else ⟨negative, infinite, by decide⟩

def zero : Binary64 := ⟨false, 0, by decide⟩

def nan : Binary64 := ⟨false, infinite + binade / 2, by decide⟩

instance : Inhabited Binary64 := ⟨zero⟩

def isNaN (x : Binary64) : Bool := infinite < x.magnitude

def isFinite (x : Binary64) : Bool := x.magnitude < infinite

def units (x : Binary64) : Int :=
  if x.negative then -(unitsOf x.magnitude : Int) else unitsOf x.magnitude

/-- Numeric equality: the two zeros are equal and a NaN equals nothing. -/
def equals (x y : Binary64) : Bool :=
  !x.isNaN && !y.isNaN && x.units == y.units

def less (x y : Binary64) : Bool :=
  !x.isNaN && !y.isNaN && decide (x.units < y.units)

def isWhole (x : Binary64) : Bool :=
  x.isFinite && unitsOf x.magnitude % unitsPerOne == 0

def truncate (x : Binary64) : Int :=
  let n : Int := (unitsOf x.magnitude / unitsPerOne : Nat)
  if x.negative then -n else n

/-- The quotient rounded to the nearest integer, a half to the even one. -/
def roundQuotient (num den : Nat) : Nat :=
  let q := num / den
  let twice := 2 * (num % den)
  if twice < den then q
  else if den < twice then q + 1
  else q + q % 2

/-- The magnitude nearest to `num / den`, ties to the even one; what is too large is infinite. -/
def nearestMagnitude (num den : Nat) : Nat :=
  let scaled := num * unitsPerOne
  let shift := (scaled / den).log2 - 52
  Nat.min (shift * binade + roundQuotient scaled (den * Nat.pow 2 shift)) infinite

def ofRatio (negative : Bool) (num den : Nat) : Binary64 :=
  ofMagnitude negative (nearestMagnitude num den)

def ofNat (n : Nat) : Binary64 := ofRatio false n 1

def ofInt (n : Int) : Binary64 := ofRatio (n < 0) n.natAbs 1

/-- The number nearest to `± coefficient · 10 ^ exponent`. -/
def ofDecimal (negative : Bool) (coefficient : Nat) (exponent : Int) : Binary64 :=
  let size : Int := coefficient.log2 / 3 + exponent
  if coefficient = 0 then ofMagnitude negative 0
  else if 400 < exponent then ofMagnitude negative infinite
  else if size < -400 then ofMagnitude negative 0
  else if 0 ≤ exponent then ofRatio negative (coefficient * Nat.pow 10 exponent.toNat) 1
  else ofRatio negative coefficient (Nat.pow 10 (-exponent).toNat)

def mul (x y : Binary64) : Binary64 :=
  ofRatio (x.negative != y.negative)
    (unitsOf x.magnitude * unitsOf y.magnitude) (unitsPerOne * unitsPerOne)

def div (x y : Binary64) : Binary64 :=
  ofRatio (x.negative != y.negative) (unitsOf x.magnitude) (unitsOf y.magnitude)

end Binary64

end ApiContract

import ApiContract.Number.Binary64

/-!
Decimal text of binary64 numbers: the fewest digits that read back, and the reading of plain
decimal numerals.
-/

namespace ApiContract

structure Decimal where
  coefficient : Nat
  exponent : Int
deriving DecidableEq, Repr

inductive Tie where
  | even
  | up
deriving DecidableEq, Repr

namespace Decimal

def ratio (d : Decimal) : Nat × Nat :=
  if 0 ≤ d.exponent then (d.coefficient * Nat.pow 10 d.exponent.toNat, 1)
  else (d.coefficient, Nat.pow 10 (-d.exponent).toNat)

/-- Whether the decimal lies among the reals that round to `magnitude`.

Everything is counted in quarters of the least subnormal, where the two ends of that interval are
integers. The ends belong to it exactly for an even magnitude. -/
def roundsTo (d : Decimal) (magnitude : Nat) : Bool :=
  let gap := Nat.pow 2 (magnitude / Binary64.binade - 1)
  let mid := 4 * Binary64.unitsOf magnitude
  let below :=
    if magnitude % Binary64.binade = 0 ∧ 2 * Binary64.binade ≤ magnitude then gap else 2 * gap
  let (num, den) := d.ratio
  let here := 4 * num * Binary64.unitsPerOne
  let low := (mid - below) * den
  let high := (mid + 2 * gap) * den
  if magnitude % 2 = 0 then low ≤ here && here ≤ high else low < here && here < high

/-- The least `k` with `units · 2 ^ -1074 < 10 ^ k`. -/
def decimalExponent (units : Nat) : Int :=
  let whole := units / Binary64.unitsPerOne
  if whole ≠ 0 then (Nat.toDigits 10 whole).length
  else (Nat.toDigits 10 (units * Nat.pow 10 325 / Binary64.unitsPerOne)).length - 325

/-- The better of the two neighbours of the magnitude on the grid `10 ^ exponent`, if either of
them reads back. -/
def onGrid? (tie : Tie) (magnitude : Nat) (exponent : Int) : Option Decimal :=
  let units := Binary64.unitsOf magnitude
  let (num, den) :=
    if 0 ≤ exponent then (units, Binary64.unitsPerOne * Nat.pow 10 exponent.toNat)
    else (units * Nat.pow 10 (-exponent).toNat, Binary64.unitsPerOne)
  let low : Decimal := ⟨num / den, exponent⟩
  let high : Decimal := ⟨num / den + 1, exponent⟩
  let lowFits := low.coefficient ≠ 0 && low.roundsTo magnitude
  let highFits := high.roundsTo magnitude
  if lowFits && highFits then
    let twice := 2 * (num % den)
    if twice < den then some low
    else if den < twice then some high
    else if tie = .even ∧ low.coefficient % 2 = 0 then some low
    else some high
  else if lowFits then some low
  else if highFits then some high
  else none

def shortestFrom (tie : Tie) (magnitude : Nat) (top : Int) : Nat → Nat → Decimal
  | 0, digits => ⟨0, top - digits⟩
  | tries + 1, digits =>
    match onGrid? tie magnitude (top - digits) with
    | some d => d
    | none => shortestFrom tie magnitude top tries (digits + 1)

/-- The decimal with the fewest digits that reads back as the finite magnitude, nearest to it among
those. Seventeen digits always suffice. -/
def shortest (tie : Tie) (magnitude : Nat) : Decimal :=
  if magnitude = 0 then ⟨0, 0⟩
  else shortestFrom tie magnitude (decimalExponent (Binary64.unitsOf magnitude)) 17 1

/-- Significant digits and the place of the decimal point, counted from before the first digit. -/
def digits (d : Decimal) : List Char × Int :=
  let ds := Nat.toDigits 10 d.coefficient
  let kept := (ds.reverse.dropWhile (· == '0')).reverse
  (kept, ds.length + d.exponent)

def zeros (n : Nat) : List Char := List.replicate n '0'

def positional (d : Decimal) : List Char :=
  if d.coefficient = 0 then ['0']
  else
    let (ds, point) := d.digits
    if point ≤ 0 then '0' :: '.' :: zeros (-point).toNat ++ ds
    else if ds.length ≤ point.toNat then ds ++ zeros (point.toNat - ds.length)
    else ds.take point.toNat ++ '.' :: ds.drop point.toNat

/-- Positional notation with a fraction for decimal exponents from -5 to 15, and scientific
notation with a signed exponent beyond. -/
def scientific (d : Decimal) : List Char :=
  if d.coefficient = 0 then ['0', '.', '0']
  else
    let (ds, point) := d.digits
    if 16 < point ∨ point ≤ -5 then
      let e := point - 1
      let mark := if e < 0 then ['e', '-'] else ['e', '+']
      let mantissa := match ds with
        | [c] => [c]
        | c :: rest => c :: '.' :: rest
        | [] => []
      mantissa ++ mark ++ Nat.toDigits 10 e.natAbs
    else if 0 < point ∧ ds.length ≤ point.toNat then d.positional ++ ['.', '0']
    else d.positional

end Decimal

namespace Binary64

/-- Plain text of a number: the shortest digits in positional notation, a tie going up. -/
def text (x : Binary64) : String :=
  if x.isNaN then "NaN"
  else
    let sign := if x.negative then "-" else ""
    if x.isFinite then sign ++ String.ofList (Decimal.shortest .up x.magnitude).positional
    else sign ++ "inf"

/-- Text of a finite number that always shows a fraction or an exponent; a tie goes to the even
digit. -/
def scientificText (x : Binary64) : String :=
  let sign := if x.negative then "-" else ""
  sign ++ String.ofList (Decimal.shortest .even x.magnitude).scientific

end Binary64

namespace Decimal

def digitValue (c : Char) : Nat := c.toNat - '0'.toNat

def ofDigits (cs : List Char) : Nat := cs.foldl (fun n c => 10 * n + digitValue c) 0

def splitSign : List Char → Bool × List Char
  | '+' :: cs => (false, cs)
  | '-' :: cs => (true, cs)
  | cs => (false, cs)

def exponentOf? (cs : List Char) : Option Int :=
  match cs with
  | [] => some 0
  | c :: rest =>
    if c = 'e' ∨ c = 'E' then
      let (negative, ds) := splitSign rest
      if ds ≠ [] ∧ ds.all Char.isDigit then
        some (if negative then -(ofDigits ds : Int) else ofDigits ds)
      else none
    else none

/-- An unsigned numeral: digits with at most one point among or around them, at least one digit,
and an optional exponent. -/
def ofNumeral? (cs : List Char) : Option Decimal :=
  let whole := cs.takeWhile Char.isDigit
  let rest := cs.dropWhile Char.isDigit
  let (fraction, tail) := match rest with
    | '.' :: more => (more.takeWhile Char.isDigit, more.dropWhile Char.isDigit)
    | other => ([], other)
  if whole = [] ∧ fraction = [] then none
  else (exponentOf? tail).map fun e =>
    ⟨ofDigits (whole ++ fraction), e - fraction.length⟩

end Decimal

namespace Binary64

/-- Reads a signed numeral, or the words `inf`, `infinity` and `nan` in any case. -/
def ofText? (text : String) : Option Binary64 :=
  let (negative, body) := Decimal.splitSign text.toList
  let word := String.ofList (body.map Char.toLower)
  if word = "inf" ∨ word = "infinity" then some (ofMagnitude negative infinite)
  else if word = "nan" then some nan
  else (Decimal.ofNumeral? body).map fun d => ofDecimal negative d.coefficient d.exponent

end Binary64

end ApiContract

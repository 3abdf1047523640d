import ApiContract.Json.Basic
import ApiContract.Text.Hex

/-!
Reading JSON text.

Numbers are read word by word: digits are gathered while the coefficient fits in 64 bits, and the
result is scaled by one rounded multiplication or division with a rounded power of ten. For up to
fifteen digits and small exponents this is the nearest binary64 number; beyond that it can be a
neighbour of it.
-/

namespace ApiContract

namespace Json

def isBlank (c : Char) : Bool := c = ' ' || c = '\n' || c = '\t' || c = '\r'

def skipBlanks (cs : List Char) : List Char := cs.dropWhile isBlank

def wordLimit : Nat := 0x10000000000000000

/-- Appends digits to a coefficient while it fits in a word; the rest is returned. -/
def gather (coefficient : Nat) : List Char → Nat × List Char
  | [] => (coefficient, [])
  | c :: cs =>
    let next := 10 * coefficient + Decimal.digitValue c
    if next < wordLimit then gather next cs else (coefficient, c :: cs)

/-- Scales by a power of ten in steps that binary64 can hold; infinite results are refused. -/
def scale? : Nat → Binary64 → Int → Option Binary64
  | 0, x, _ => some x
  | steps + 1, x, exponent =>
    if exponent.natAbs ≤ 308 then
      let power := Binary64.ofNat (Nat.pow 10 exponent.natAbs)
      if 0 ≤ exponent then
        let y := x.mul power
        if y.isFinite then some y else none
      else some (x.div power)
    else if x.magnitude = 0 then some x
    else if 0 ≤ exponent then none
    else scale? steps (x.div (Binary64.ofNat (Nat.pow 10 308))) (exponent + 308)

def ofParts? (negative : Bool) (coefficient : Nat) (exponent : Int) : Option JsonNumber :=
  (scale? 4 (Binary64.ofNat coefficient) exponent).map fun x => .real { x with negative }

def integer? (negative : Bool) (digits : List Char) : Option JsonNumber :=
  match gather 0 digits with
  | (n, []) =>
    if negative then
      if n = 0 ∨ 0x8000000000000000 < n then some (.real { Binary64.ofNat n with negative := true })
      else some (.integer (-n))
    else some (.integer n)
  | (n, rest) => ofParts? negative n rest.length

def real? (negative : Bool) (whole fraction : List Char) (exponent : Int) : Option JsonNumber :=
  let (n, restWhole) := gather 0 whole
  let (n, restFraction) := gather n fraction
  let shift : Int := restWhole.length - (fraction.length - restFraction.length : Nat)
  if 0x80000000 ≤ exponent ∧ n ≠ 0 then none
  else if 0x80000000 ≤ exponent.natAbs then some (.real (Binary64.ofMagnitude negative 0))
  else ofParts? negative n (shift + exponent)

/-- Splits an exponent off; a mark without digits is refused. -/
def exponent? (cs : List Char) : Option (Option Int × List Char) :=
  match cs with
  | c :: rest =>
    if c = 'e' ∨ c = 'E' then
      let (negative, rest) := Decimal.splitSign rest
      let digits := rest.takeWhile Char.isDigit
      if digits = [] then none
      else
        let n : Int := Decimal.ofDigits digits
        some (some (if negative then -n else n), rest.dropWhile Char.isDigit)
    else some (none, cs)
  | [] => some (none, [])

def number? (cs : List Char) : Option (JsonNumber × List Char) :=
  let (negative, cs) := match cs with
    | '-' :: rest => (true, rest)
    | other => (false, other)
  let whole := cs.takeWhile Char.isDigit
  let rest := cs.dropWhile Char.isDigit
  if whole = [] ∨ (whole.head? = some '0' ∧ whole ≠ ['0']) then none
  else
    match rest with
    | '.' :: more =>
      let fraction := more.takeWhile Char.isDigit
      if fraction = [] then none
      else
        (exponent? (more.dropWhile Char.isDigit)).bind fun (e, tail) =>
          (real? negative whole fraction (e.getD 0)).map (·, tail)
    | _ =>
      (exponent? rest).bind fun (e, tail) =>
        match e with
        | some e => (real? negative whole [] e).map (·, tail)
        | none => (integer? negative whole).map (·, tail)

def isHighSurrogate (n : Nat) : Bool := 0xD800 ≤ n && n < 0xDC00

def isLowSurrogate (n : Nat) : Bool := 0xDC00 ≤ n && n < 0xE000

def simpleEscape? : Char → Option Char
  | '"' => some '"'
  | '\\' => some '\\'
  | '/' => some '/'
  | 'b' => some '\x08'
  | 'f' => some '\x0c'
  | 'n' => some '\n'
  | 'r' => some '\r'
  | 't' => some '\t'
  | _ => none

/-- The rest of a text after its opening quote. Surrogates must come in pairs, and control
characters must be escaped. -/
def stringRest? (acc : List Char) : List Char → Option (String × List Char)
  | [] => none
  | '"' :: rest => some (String.ofList acc.reverse, rest)
  | '\\' :: 'u' :: a :: b :: c :: d :: '\\' :: 'u' :: e :: f :: g :: h :: rest =>
    match Text.hexNumber? [a, b, c, d] with
    | none => none
    | some n =>
      if isHighSurrogate n then
        match Text.hexNumber? [e, f, g, h] with
        | none => none
        | some m =>
          if isLowSurrogate m then
            stringRest? (Char.ofNat (0x10000 + (n - 0xD800) * 0x400 + (m - 0xDC00)) :: acc) rest
          else none
      else if isLowSurrogate n then none
      else stringRest? (Char.ofNat n :: acc) ('\\' :: 'u' :: e :: f :: g :: h :: rest)
  | '\\' :: 'u' :: a :: b :: c :: d :: rest =>
    match Text.hexNumber? [a, b, c, d] with
    | none => none
    | some n =>
      if isHighSurrogate n || isLowSurrogate n then none
      else stringRest? (Char.ofNat n :: acc) rest
  | '\\' :: c :: rest =>
    match simpleEscape? c with
    | none => none
    | some e => stringRest? (e :: acc) rest
  | c :: rest => if c.toNat < 0x20 || c = '\\' then none else stringRest? (c :: acc) rest

def depthLimit : Nat := 127

def keyword? (word : String) (j : Json) (cs : List Char) : Option (Json × List Char) :=
  if word.toList.isPrefixOf cs then some (j, cs.drop word.length) else none

mutual

/-- A value at the head of the text. `depth` is the nesting still allowed. -/
def value? : Nat → Nat → List Char → Option (Json × List Char)
  | 0, _, _ => none
  | fuel + 1, depth, cs =>
    match skipBlanks cs with
    | '"' :: rest => (stringRest? [] rest).map fun (s, tail) => (string s, tail)
    | '[' :: rest =>
      match depth with
      | 0 => none
      | depth + 1 =>
        match skipBlanks rest with
        | ']' :: tail => some (array [], tail)
        | _ => (items? fuel depth rest []).map fun (js, tail) => (array js, tail)
    | '\x7b' :: rest =>
      match depth with
      | 0 => none
      | depth + 1 =>
        match skipBlanks rest with
        | '\x7d' :: tail => some (object [], tail)
        | _ => (members? fuel depth rest []).map fun (ms, tail) => (object ms, tail)
    | 'n' :: rest => keyword? "null" null ('n' :: rest)
    | 't' :: rest => keyword? "true" (bool true) ('t' :: rest)
    | 'f' :: rest => keyword? "false" (bool false) ('f' :: rest)
    | other => (number? other).map fun (n, tail) => (number n, tail)

def items? : Nat → Nat → List Char → List Json → Option (List Json × List Char)
  | 0, _, _, _ => none
  | fuel + 1, depth, cs, acc =>
    match value? fuel depth cs with
    | none => none
    | some (j, rest) =>
      match skipBlanks rest with
      | ',' :: tail => items? fuel depth tail (j :: acc)
      | ']' :: tail => some ((j :: acc).reverse, tail)
      | _ => none

/-- Members up to the closing brace; a repeated key keeps its place and takes the last value. -/
def members? : Nat → Nat → List Char → List (String × Json) →
    Option (List (String × Json) × List Char)
  | 0, _, _, _ => none
  | fuel + 1, depth, cs, acc =>
    match skipBlanks cs with
    | '"' :: rest =>
      match stringRest? [] rest with
      | none => none
      | some (key, rest) =>
        match skipBlanks rest with
        | ':' :: rest =>
          match value? fuel depth rest with
          | none => none
          | some (j, rest) =>
            match skipBlanks rest with
            | ',' :: tail => members? fuel depth tail ((key, j) :: acc)
            | '\x7d' :: tail => some (Entries.ofList ((key, j) :: acc).reverse, tail)
            | _ => none
        | _ => none
    | _ => none

end

def ofText? (text : String) : Option Json :=
  let cs := text.toList
  match value? (2 * cs.length + 2) depthLimit cs with
  | some (j, rest) => if skipBlanks rest = [] then some j else none
  | none => none

end Json

end ApiContract

import ApiContract.Text.Percent
import ApiContract.Text.Utf8
import ApiContract.Unicode.Category
import ApiContract.Unicode.Composition
import ApiContract.Unicode.Folding
import ApiContract.Unicode.Property

/-!
Domain names in ASCII form.

A name is mapped to lower case, composed, and its labels beyond ASCII are written in the bootstring
form of RFC 3492 behind `xn--`. A label that already has that form must decode to a mapped name.
-/

namespace ApiContract.Url

open Unicode

def bootDigit (d : Nat) : Char := Char.ofNat (if d < 26 then 0x61 + d else 0x16 + d)

def bootValue? (c : Char) : Option Nat :=
  if 'a' ≤ c ∧ c ≤ 'z' then some (c.toNat - 0x61)
  else if '0' ≤ c ∧ c ≤ '9' then some (c.toNat - 0x16)
  else none

/-- The threshold of a digit at weight position `k`. -/
def threshold (k bias : Nat) : Nat := Nat.min 26 (Nat.max 1 (k - bias))

/-- Halves the distances seen so far until they are in range. -/
def shrink : Nat → Nat → Nat → Nat × Nat
  | 0, delta, k => (delta, k)
  | fuel + 1, delta, k => if 455 < delta then shrink fuel (delta / 35) (k + 36) else (delta, k)

def adapt (delta count : Nat) (first : Bool) : Nat :=
  let d := if first then delta / 700 else delta / 2
  let (d, k) := shrink 64 (d + d / count) 0
  k + 36 * d / (d + 38)

def encodeDistance : Nat → Nat → Nat → Nat → List Char
  | 0, _, _, _ => []
  | fuel + 1, bias, k, q =>
    let t := threshold k bias
    if q < t then [bootDigit q]
    else
      let rest := (q - t) / (36 - t)
      bootDigit (t + (q - t) % (36 - t)) :: encodeDistance fuel bias (k + 36) rest

structure BootState where
  written : List Char
  next : Nat
  delta : Nat := 0
  bias : Nat := 72
  handled : Nat

/-- Writes all occurrences of the least code point not yet handled. -/
def encodeRound (label : List Nat) (basic : Nat) (s : BootState) (m : Nat) : BootState :=
  let s := { s with delta := s.delta + (m - s.next) * (s.handled + 1), next := m }
  let s := label.foldl (fun s c =>
    if c < m then { s with delta := s.delta + 1 }
    else if c = m then
      { s with
        written := s.written ++ encodeDistance 64 s.bias 36 s.delta
        bias := adapt s.delta (s.handled + 1) (s.handled == basic)
        delta := 0
        handled := s.handled + 1 }
    else s) s
  { s with delta := s.delta + 1, next := m + 1 }

def bootEncode (label : List Char) : List Char :=
  let basic := label.filter fun c => c.toNat < 0x80
  let others := ((label.map Char.toNat).filter fun n => 0x80 ≤ n).mergeSort.eraseDups
  let start : BootState :=
    { written := if basic = [] then [] else basic ++ ['-'], next := 0x80, handled := basic.length }
  (others.foldl (encodeRound (label.map Char.toNat) basic.length) start).written

def decodeDistance? (bias : Nat) : Nat → Nat → Nat → List Char → Option (Nat × List Char)
  | _, _, _, [] => none
  | k, weight, value, c :: cs =>
    (bootValue? c).bind fun d =>
      let t := threshold k bias
      let value := value + d * weight
      if d < t then some (value, cs)
      else decodeDistance? bias (k + 36) (weight * (36 - t)) value cs

/-- Reads distances and inserts the code points they lead to. -/
def decodeRest? : Nat → Nat → Nat → Nat → List Nat → List Char → Option (List Nat)
  | _, _, _, _, label, [] => some label
  | 0, _, _, _, _, _ => none
  | fuel + 1, n, place, bias, label, cs =>
    (decodeDistance? bias 36 1 0 cs).bind fun (delta, rest) =>
      let count := label.length + 1
      let next := n + (place + delta) / count
      let i := (place + delta) % count
      if lastCodePoint < next then none
      else
        decodeRest? fuel next (i + 1) (adapt delta count (place == 0)) (label.insertIdx i next) rest

def bootDecode? (cs : List Char) : Option (List Char) :=
  let tail := (cs.reverse.takeWhile (· ≠ '-')).reverse
  let basic := cs.take (cs.length - tail.length - 1)
  (decodeRest? (cs.length + 1) 0x80 0 72 (basic.map Char.toNat) tail).map fun ns =>
    ns.map Char.ofNat

def lowerCode (n : Nat) : Nat :=
  if casefolding.contains n then
    let least := foldingLeast n
    let members := least :: (foldingPairs.filter fun p => p.1 == least).map Prod.snd
    ((members.filter fun m => !casefolding.contains m).head?).getD n
  else n
where
  casefolding : CodeSet := CodeSet.ofGaps 0 (numbers changesWhenCasefoldedText)

/-- Code points that leave no trace in a name. -/
def ignorable : CodeSet :=
  (CodeSet.ofGaps 0 (numbers defaultIgnorableCodePointText)).diff (CodeSet.range 0x200C 0x200D)

/-- Wide forms of ASCII become ASCII, and the ideographic stops become a point. -/
def narrow (n : Nat) : Nat :=
  if 0xFF01 ≤ n ∧ n ≤ 0xFF5E then n - 0xFEE0
  else if n = 0x3002 ∨ n = 0xFF61 then 0x2E
  else n

def composeFrom (first : Nat) : List Nat → List Nat
  | [] => [first]
  | second :: rest =>
    match compose? first second with
    | some c => composeFrom c rest
    | none => first :: composeFrom second rest

def compose : List Nat → List Nat
  | [] => []
  | first :: rest => composeFrom first rest

def mapDomain (cs : List Char) : List Char :=
  let codes := (cs.map Char.toNat).filter fun n => !ignorable.contains n
  (compose (codes.map fun n => lowerCode (narrow n))).map Char.ofNat

def forbidden : CodeSet :=
  (ofCategories (Category.separators ++ Category.others)).union (CodeSet.singleton 0xFFFD)

def isForbiddenAscii (c : Char) : Bool :=
  c.toNat ≤ 0x20 || c.toNat = 0x7F || "%#/:<>?@[\\]^|".toList.contains c

def isAscii (cs : List Char) : Bool := cs.all fun c => c.toNat < 0x80

/-- Whether a mapped label beyond ASCII may stand in a name. -/
def isLabel (label : List Char) : Bool :=
  !label.any (fun c => forbidden.contains c.toNat) &&
    !label.head?.any (fun c => marks.contains c.toNat)

def labelToAscii? (label : List Char) : Option (List Char) :=
  if "xn--".toList.isPrefixOf label then
    if isAscii label then
      (bootDecode? (label.drop 4)).bind fun decoded =>
        if !isAscii decoded && isLabel decoded && mapDomain decoded = decoded then some label
        else none
    else none
  else if isAscii label then some label
  else if isLabel label then some ("xn--".toList ++ bootEncode label)
  else none

def joinLabels : List (List Char) → List Char
  | [] => []
  | [label] => label
  | label :: rest => label ++ '.' :: joinLabels rest

def domainToAscii? (cs : List Char) : Option (List Char) := do
  let labels ← (Text.splitOnChar '.' (mapDomain cs)).mapM labelToAscii?
  let name := joinLabels labels
  if name.any isForbiddenAscii then none else some name

end ApiContract.Url

import ApiContract.Text.Hex
import ApiContract.Text.Split
import ApiContract.Text.Utf8

/-!
Percent-encoding, and names with values as a form sends them.
-/

namespace ApiContract.Text

def hexDigit? (b : Nat) : Option Nat := hexValue? (Char.ofNat b)

/-- A percent sign with two hexadecimal digits is the byte they give; all else stays. -/
def percentDecode : List Nat → List Nat
  | [] => []
  | b :: c :: d :: rest =>
    if b = 0x25 then
      match hexDigit? c, hexDigit? d with
      | some h, some l => (16 * h + l) :: percentDecode rest
      | _, _ => b :: percentDecode (c :: d :: rest)
    else b :: percentDecode (c :: d :: rest)
  | b :: rest => b :: percentDecode rest

/-- Percent-decodes a text; bytes that are no characters are replaced. -/
def percentDecodeText (s : String) : String :=
  String.ofList (utf8Decode (percentDecode (utf8Encode s.toList)))

def percentByte (b : Nat) : List Char := ['%', upperHex (b / 16), upperHex (b % 16)]

def percentEncode (reserved : Char → Bool) (cs : List Char) : List Char :=
  cs.flatMap fun c =>
    if 0x80 ≤ c.toNat || reserved c then (encodeChar c).flatMap percentByte else [c]

/-- A part of a form: a plus sign is a space. -/
def formDecode (cs : List Char) : String :=
  percentDecodeText (String.ofList (cs.map fun c => if c = '+' then ' ' else c))

/-- The pairs of a form in order. Empty parts are skipped, and a part without `=` has an empty
value. -/
def formPairs (s : String) : List (String × String) :=
  (splitOnChar '&' s.toList).filterMap fun part =>
    if part = [] then none
    else
      let name := part.takeWhile (· ≠ '=')
      some (formDecode name, formDecode ((part.drop name.length).drop 1))

end ApiContract.Text

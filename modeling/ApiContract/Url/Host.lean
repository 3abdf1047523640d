import ApiContract.Number.Decimal
import ApiContract.Text.Percent
import ApiContract.Url.Domain

/-!
Hosts of URLs: domain names, addresses of version 4 in their many spellings, and addresses of
version 6 in brackets.
-/

namespace ApiContract.Url

/-- A host. Two spellings of one address are the same host. -/
inductive Host where
  | domain (name : String)
  | v4 (address : Nat)
  | v6 (pieces : List Nat)
deriving DecidableEq

/-- A number in decimal, in octal behind `0` or in hexadecimal behind `0x`. -/
def addressNumber? (cs : List Char) : Option Nat :=
  match cs with
  | [] => none
  | '0' :: 'x' :: ds => Text.hexNumber? ds
  | '0' :: 'X' :: ds => Text.hexNumber? ds
  | '0' :: d :: ds =>
    if (d :: ds).all fun c => '0' ≤ c ∧ c ≤ '7' then
      some ((d :: ds).foldl (fun n c => 8 * n + Decimal.digitValue c) 0)
    else none
  | ds => if ds.all Char.isDigit then some (Decimal.ofDigits ds) else none

def addressParts (cs : List Char) : List (List Char) :=
  let parts := Text.splitOnChar '.' cs
  if 1 < parts.length ∧ parts.getLast? = some [] then parts.dropLast else parts

def endsInNumber (cs : List Char) : Bool :=
  match (addressParts cs).getLast? with
  | none => false
  | some last => (last ≠ [] && last.all Char.isDigit) || (addressNumber? last).isSome

/-- The address of up to four parts, the last of which fills what the others leave. -/
def addressV4? (cs : List Char) : Option Nat := do
  let parts := addressParts cs
  if 4 < parts.length then none
  else
    let numbers ← parts.mapM addressNumber?
    let last ← numbers.getLast?
    let leading := numbers.dropLast
    if leading.any (255 < ·) ∨ Nat.pow 256 (4 - leading.length) ≤ last then none
    else
      some (last + (leading.zipIdx.foldl (fun sum (n, i) => sum + n * Nat.pow 256 (3 - i)) 0))

/-- The bytes of a dotted address at the end of an address of version 6. -/
def dottedTail? (cs : List Char) : Option (List Nat) :=
  let parts := Text.splitOnChar '.' cs
  if parts.length ≠ 4 then none
  else
    parts.mapM fun ds =>
      if ds = [] ∨ ¬ ds.all Char.isDigit ∨ (ds.length ≠ 1 ∧ ds.head? = some '0') then none
      else
        let n := Decimal.ofDigits ds
        if n ≤ 255 then some n else none

def pieces? : List (List Char) → Option (List Nat)
  | [] => some []
  | [last] =>
    if last.contains '.' then
      match dottedTail? last with
      | some [a, b, c, d] => some [256 * a + b, 256 * c + d]
      | _ => none
    else (piece? last).map ([·])
  | p :: rest => do return (← piece? p) :: (← pieces? rest)
where
  piece? (ds : List Char) : Option Nat :=
    if ds ≠ [] ∧ ds.length ≤ 4 then Text.hexNumber? ds else none

def sidePieces? (cs : List Char) : Option (List Nat) :=
  if cs = [] then some [] else pieces? (Text.splitOnChar ':' cs)

/-- The eight pieces of an address; a double colon stands for at least one of them. -/
def addressV6? (cs : List Char) : Option (List Nat) :=
  match Text.splitAt? [':', ':'] cs with
  | none => (pieces? (Text.splitOnChar ':' cs)).bind fun ps =>
    if ps.length = 8 then some ps else none
  | some (left, right) => do
    let ls ← if left.contains '.' then none else sidePieces? left
    let rs ← sidePieces? right
    if 8 ≤ ls.length + rs.length then none
    else some (ls ++ List.replicate (8 - ls.length - rs.length) 0 ++ rs)

/-- An address in brackets; the text begins behind the opening one. -/
def bracketedHost? (cs : List Char) : Option Host :=
  if cs.getLast? = some ']' then (addressV6? cs.dropLast).map .v6 else none

def Host.ofSpecial? (cs : List Char) : Option Host :=
  match cs with
  | '[' :: rest => bracketedHost? rest
  | _ =>
    (domainToAscii? (Text.utf8Decode (Text.percentDecode (Text.utf8Encode cs)))).bind fun name =>
      if name = [] then none
      else if endsInNumber name then (addressV4? name).map .v4
      else some (.domain (String.ofList name))

def isForbiddenOpaque (c : Char) : Bool := "\x00\t\n\r #/:<>?@[\\]^|".toList.contains c

def isControl (c : Char) : Bool := c.toNat < 0x20 || c.toNat = 0x7F

def Host.ofOpaque? (cs : List Char) : Option Host :=
  match cs with
  | '[' :: rest => bracketedHost? rest
  | _ =>
    if cs.any isForbiddenOpaque then none
    else some (.domain (String.ofList (Text.percentEncode isControl cs)))

end ApiContract.Url

import ApiContract.Entries
import ApiContract.Number.Decimal

/-!
JSON documents. Objects keep the order of their members, and a number keeps whether it was written
as an integer of 64 bits or as a binary64 number.
-/

namespace ApiContract

/-- A JSON number. An integer lies between `-2 ^ 63` and `2 ^ 64 - 1`; a real is finite. -/
inductive JsonNumber where
  | integer (n : Int)
  | real (x : Binary64)
deriving DecidableEq

inductive Json where
  | null
  | bool (b : Bool)
  | number (n : JsonNumber)
  | string (s : String)
  | array (items : List Json)
  | object (members : List (String × Json))

namespace JsonNumber

def toBinary64 : JsonNumber → Binary64
  | integer n => Binary64.ofInt n
  | real x => x

def toNat? : JsonNumber → Option Nat
  | integer n => if 0 ≤ n then some n.toNat else none
  | real _ => none

end JsonNumber

namespace Json

instance : Inhabited Json := ⟨null⟩

def ofNat (n : Nat) : Json := number (.integer n)

def ofInt (n : Int) : Json := number (.integer n)

def ofBinary64 (x : Binary64) : Json := if x.isFinite then number (.real x) else null

def string? : Json → Option String
  | string s => some s
  | _ => none

def bool? : Json → Option Bool
  | bool b => some b
  | _ => none

def array? : Json → Option (List Json)
  | array items => some items
  | _ => none

def object? : Json → Option (Entries Json)
  | object members => some members
  | _ => none

def binary64? : Json → Option Binary64
  | number n => some n.toBinary64
  | _ => none

def get? (j : Json) (key : String) : Option Json :=
  match j with
  | object members => Entries.get? members key
  | _ => none

/-- An array index of a pointer: digits without a sign and without a leading zero. -/
def pointerIndex? (segment : String) : Option Nat :=
  let cs := segment.toList
  if cs = [] ∨ ¬ cs.all Char.isDigit ∨ (cs.head? = some '0' ∧ cs.length ≠ 1) then none
  else some (Decimal.ofDigits cs)

/-- Follows member names and array indices into a document. -/
def follow? (j : Json) : List String → Option Json
  | [] => some j
  | segment :: rest =>
    match j with
    | object members => (Entries.get? members segment).bind fun m => m.follow? rest
    | array items =>
      ((pointerIndex? segment).bind fun i => items[i]?).bind fun m => m.follow? rest
    | _ => none

end Json

end ApiContract

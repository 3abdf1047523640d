import ApiContract.Json.Printer
import ApiContract.Value.Basic

/-!
Values and JSON: reading a document as a value, turning a value into a document, and writing the
text of a value directly.

An instant becomes its RFC 3339 text and binary content an array of its bytes. A whole number below
`integerLimit` in size is written as an integer.
-/

namespace ApiContract

namespace Value

/-- Whole numbers of smaller size have an exact integer spelling. -/
def integerLimit : Nat := 0x20000000000000

def numberToJson (x : Binary64) : Json :=
  if x.isWhole && x.truncate.natAbs < integerLimit then Json.ofInt x.truncate
  else Json.ofBinary64 x

def binaryToJson (bytes : List UInt8) : Json :=
  .array (bytes.map fun b => Json.ofNat b.toNat)

mutual

def toJson : Value → Json
  | null => .null
  | bool b => .bool b
  | number x => numberToJson x
  | string s => .string s
  | date t => .string t.text
  | binary bytes => binaryToJson bytes
  | array items => .array (itemsToJson items)
  | object members => .object (membersToJson members)

def itemsToJson : List Value → List Json
  | [] => []
  | v :: vs => toJson v :: itemsToJson vs

def membersToJson : List (String × Value) → List (String × Json)
  | [] => []
  | (k, v) :: es => (k, toJson v) :: membersToJson es

end

mutual

/-- Every JSON number becomes a binary64 number. -/
def ofJson : Json → Value
  | .null => null
  | .bool b => bool b
  | .number n => number n.toBinary64
  | .string s => string s
  | .array items => array (itemsOfJson items)
  | .object members => object (membersOfJson members)

def itemsOfJson : List Json → List Value
  | [] => []
  | j :: js => ofJson j :: itemsOfJson js

def membersOfJson : List (String × Json) → List (String × Value)
  | [] => []
  | (k, j) :: es => (k, ofJson j) :: membersOfJson es

end

mutual

def write : Value → String
  | null => "null"
  | bool b => if b then "true" else "false"
  | number x => (numberToJson x).render
  | string s => Json.quote s
  | date t => Json.quote t.text
  | binary bytes => "[" ++ ",".intercalate (bytes.map fun b => toString b.toNat) ++ "]"
  | array items => "[" ++ ",".intercalate (writeItems items) ++ "]"
  | object members => "\x7b" ++ ",".intercalate (writeMembers members) ++ "\x7d"

def writeItems : List Value → List String
  | [] => []
  | v :: vs => write v :: writeItems vs

def writeMembers : List (String × Value) → List String
  | [] => []
  | (k, v) :: es => (Json.quote k ++ ":" ++ write v) :: writeMembers es

end

end Value

end ApiContract

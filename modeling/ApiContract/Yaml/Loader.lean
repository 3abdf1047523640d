import ApiContract.Json.Basic
import ApiContract.Yaml.Node.Reader

/-!
JSON from YAML text.

Plain scalars without a tag are null, booleans or numbers where their text says so, after the core
schema; quoted and block scalars are strings. Keys are texts as they are written. An alias stands
for the node it names; how often aliases may be followed is limited, and so is the depth of
collections.
-/

namespace ApiContract.Yaml

def isNullWord (text : String) : Bool := ["null", "Null", "NULL", "~"].contains text

def boolean? (text : String) : Option Bool :=
  if ["true", "True", "TRUE"].contains text then some true
  else if ["false", "False", "FALSE"].contains text then some false
  else none

def digitIn? (radix : Nat) (c : Char) : Option Nat :=
  (Text.hexValue? c).bind fun n => if n < radix then some n else none

def numeral? (radix : Nat) (cs : List Char) : Option Nat :=
  if cs = [] then none else cs.foldlM (fun n c => (digitIn? radix c).map (radix * n + ·)) 0

/-- Digits after a zero are no number. -/
def hasLeadingZero : List Char → Bool
  | '0' :: c :: rest => (c :: rest).all Char.isDigit
  | _ => false

/-- An integer without its sign, in base ten or marked as binary, octal or hexadecimal. -/
def magnitude? : List Char → Option Nat
  | '0' :: 'x' :: digits => numeral? 16 digits
  | '0' :: 'o' :: digits => numeral? 8 digits
  | '0' :: 'b' :: digits => numeral? 2 digits
  | digits => if hasLeadingZero digits then none else numeral? 10 digits

def integer? : List Char → Option Int
  | '-' :: cs => (magnitude? cs).map fun n => -n
  | '+' :: cs => (magnitude? cs).map fun n => n
  | cs => (magnitude? cs).map fun n => n

/-- Integers of up to 64 bits can be read, longer ones of up to 128 bits cannot, and what is longer
still is not taken as an integer. -/
inductive IntegerSize where
  | word
  | long
  | huge

def integerSize (n : Int) : IntegerSize :=
  if -0x8000000000000000 ≤ n ∧ n < 0x10000000000000000 then .word
  else if -(Nat.pow 2 127 : Int) ≤ n ∧ n < Nat.pow 2 128 then .long
  else .huge

/-- A number with a fraction or an exponent, an infinity, or no number. -/
def real? (text : String) : Option Binary64 :=
  let cs := text.toList
  let unsigned := if cs.head? = some '+' then cs.tail else cs
  if cs.head? = some '+' ∧ (cs[1]? = some '+' ∨ cs[1]? = some '-') then none
  else if [".inf", ".Inf", ".INF"].contains (String.ofList unsigned) then
    some (Binary64.ofMagnitude false Binary64.infinite)
  else if ["-.inf", "-.Inf", "-.INF"].contains text then
    some (Binary64.ofMagnitude true Binary64.infinite)
  else if [".nan", ".NaN", ".NAN"].contains text then some Binary64.nan
  else
    (Binary64.ofText? (String.ofList unsigned)).bind fun x => if x.isFinite then some x else none

def plainJson? (text : String) : Option Json :=
  let number :=
    match real? text with
    | some x => Json.ofBinary64 x
    | none => .string text
  if text = "" ∨ isNullWord text then some .null
  else
    match boolean? text with
    | some b => some (.bool b)
    | none =>
      match integer? text.toList with
      | some n =>
        match integerSize n with
        | .word => some (Json.ofInt n)
        | .long => none
        | .huge => some number
      | none =>
        if hasLeadingZero (Decimal.splitSign text.toList).2 then some (.string text)
        else some number

inductive ScalarTag where
  | boolean
  | integer
  | real
  | null
  /-- A tag of the document's own kind. -/
  | custom
  | other
deriving DecidableEq

def ScalarTag.ofName (tag : List Char) : ScalarTag :=
  if tag.head? = some '!' then .custom
  else if tag = "tag:yaml.org,2002:bool".toList then .boolean
  else if tag = "tag:yaml.org,2002:int".toList then .integer
  else if tag = "tag:yaml.org,2002:float".toList then .real
  else if tag = "tag:yaml.org,2002:null".toList then .null
  else .other

def scalarJson? (tag : Option (List Char)) (style : ScalarStyle) (text : String) : Option Json :=
  match tag.map ScalarTag.ofName with
  | none => if style = .plain then plainJson? text else some (.string text)
  | some .custom => none
  | some .boolean => (boolean? text).map .bool
  | some .integer =>
    (integer? text.toList).bind fun n =>
      match integerSize n with
      | .word => some (Json.ofInt n)
      | _ => none
  | some .real => (real? text).map Json.ofBinary64
  | some .null => if isNullWord text then some .null else none
  | some .other => some (.string text)

def depthLimit : Nat := 128

/-- How often aliases may be followed in a document of a given size. -/
def aliasLimit (root : Node) : Nat := 100 * root.eventCount

/-- Reads with a number of aliases that may still be followed. -/
abbrev Following := StateT Nat Option

namespace Node

def follow (find : Nat → Option Node) (n : Node) : Following Node := do
  match n with
  | aliasOf a =>
    match ← get with
    | 0 => failure
    | left + 1 =>
      set left
      find a
  | n => return n

def keyText (find : Nat → Option Node) (n : Node) : Following String := do
  match ← n.follow find with
  | scalar _ _ text => return text
  | _ => failure

def isCustom (p : Properties) : Bool := p.tag.any (·.head? = some '!')

def toJson (find : Nat → Option Node) : Nat → Node → Following Json
  | depth, n => do
    match ← n.follow find with
    | scalar p style text => scalarJson? p.tag style text
    | sequence p items =>
      match depth with
      | 0 => failure
      | depth + 1 =>
        if isCustom p then failure
        return .array (← items.mapM (toJson find depth))
    | mapping p pairs =>
      match depth with
      | 0 => failure
      | depth + 1 =>
        if isCustom p then failure
        let members ← pairs.mapM fun (k, v) => do
          let key ← k.keyText find
          return (key, ← toJson find depth v)
        return .object (Entries.ofList members)
    | aliasOf _ => failure

end Node

end ApiContract.Yaml

namespace ApiContract.Json

/-- Reads YAML text with a single document; a text without any is null. -/
def ofYaml? (text : String) : Option Json :=
  (Yaml.root? text).bind fun root =>
    match root with
    | none => some .null
    | some node => (node.toJson node.anchored? Yaml.depthLimit).run' (Yaml.aliasLimit node)

end ApiContract.Json

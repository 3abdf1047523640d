import ApiContract.Calendar.Instant
import ApiContract.Entries
import ApiContract.Number.Binary64

/-!
Runtime values: what JSON can express, and in addition instants and binary content that were decoded
before or during validation.
-/

namespace ApiContract

/-- A runtime value. Integers are numbers; an object keeps the order of its keys. -/
inductive Value where
  | null
  | bool (b : Bool)
  | number (x : Binary64)
  | string (s : String)
  | date (t : Calendar.Instant)
  | binary (bytes : List UInt8)
  | array (items : List Value)
  | object (members : List (String × Value))

namespace Value

instance : Inhabited Value := ⟨null⟩

def isNull : Value → Bool
  | null => true
  | _ => false

theorem eq_null_of_isNull {v : Value} (isNull : v.isNull = true) : v = null := by
  cases v with
  | null => rfl
  | _ => simp [Value.isNull] at isNull

def string? : Value → Option String
  | string s => some s
  | _ => none

def object? : Value → Option (Entries Value)
  | object members => some members
  | _ => none

def kind : Value → String
  | null => "null"
  | bool _ => "boolean"
  | number _ => "number"
  | string _ => "string"
  | date _ => "date"
  | binary _ => "binary"
  | array _ => "array"
  | object _ => "object"

def children : Value → List Value
  | array items => items
  | object members => Entries.values members
  | _ => []

theorem sizeOf_lt_of_mem_children {v w : Value} (h : w ∈ v.children) : sizeOf w < sizeOf v := by
  cases v with
  | array items =>
    have : sizeOf w < sizeOf items := List.sizeOf_lt_of_mem h
    simp only [array.sizeOf_spec]; omega
  | object members =>
    obtain ⟨e, he, rfl⟩ := List.mem_map.1 h
    have := List.sizeOf_lt_of_mem he
    obtain ⟨k, w⟩ := e
    simp only [object.sizeOf_spec, Prod.mk.sizeOf_spec] at this ⊢; omega
  | _ => simp [children] at h

/-- The number of containers around the innermost value. -/
def depth (v : Value) : Nat :=
  (v.children.attach.map fun ⟨w, _⟩ => w.depth + 1).foldr Nat.max 0
termination_by sizeOf v
decreasing_by exact sizeOf_lt_of_mem_children (by assumption)

mutual

/-- Equality of values: numbers compare numerically and the order of keys is ignored. -/
def same : Value → Value → Bool
  | null, null => true
  | bool a, bool b => a == b
  | number x, number y => x.equals y
  | string s, string t => s == t
  | date s, date t => s == t
  | binary xs, binary ys => xs == ys
  | array xs, array ys => sameItems xs ys
  | object es, object fs => es.length == fs.length && sameMembers es fs
  | _, _ => false

def sameItems : List Value → List Value → Bool
  | [], [] => true
  | v :: vs, w :: ws => same v w && sameItems vs ws
  | _, _ => false

def sameMembers : List (String × Value) → List (String × Value) → Bool
  | [], _ => true
  | (k, v) :: es, fs =>
    (match Entries.get? fs k with
      | some w => same v w
      | none => false) && sameMembers es fs

end

end Value

end ApiContract

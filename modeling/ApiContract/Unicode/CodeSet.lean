/-!
Sets of code points as ranges.

Ranges may come in any order and overlap while a set is being gathered; `normalize` sorts and joins
them. The complement is taken in all code points.
-/

namespace ApiContract.Unicode

def lastCodePoint : Nat := 0x10FFFF

/-- A set of code points: inclusive ranges. -/
structure CodeSet where
  ranges : List (Nat × Nat)
deriving DecidableEq

namespace CodeSet

def empty : CodeSet := ⟨[]⟩

def range (low high : Nat) : CodeSet := ⟨[(low, high)]⟩

def singleton (n : Nat) : CodeSet := range n n

def all : CodeSet := range 0 lastCodePoint

def contains (s : CodeSet) (n : Nat) : Bool := s.ranges.any fun r => r.1 ≤ n && n ≤ r.2

/-- Joins a range with the sorted ranges behind it as far as they touch. -/
def joinFrom (low high : Nat) : List (Nat × Nat) → List (Nat × Nat)
  | [] => [(low, high)]
  | r :: rest =>
    if r.1 ≤ high + 1 then joinFrom low (Nat.max high r.2) rest
    else (low, high) :: joinFrom r.1 r.2 rest

def join : List (Nat × Nat) → List (Nat × Nat)
  | [] => []
  | r :: rest => joinFrom r.1 r.2 rest

def normalize (s : CodeSet) : CodeSet :=
  ⟨join (s.ranges.mergeSort fun a b => a.1 ≤ b.1)⟩

def ofRanges (ranges : List (Nat × Nat)) : CodeSet := normalize ⟨ranges⟩

def union (s t : CodeSet) : CodeSet := ofRanges (s.ranges ++ t.ranges)

/-- What sorted and separate ranges leave free from `start` on. -/
def gaps (start : Nat) : List (Nat × Nat) → List (Nat × Nat)
  | [] => if start ≤ lastCodePoint then [(start, lastCodePoint)] else []
  | r :: rest =>
    if start < r.1 then (start, r.1 - 1) :: gaps (r.2 + 1) rest else gaps (r.2 + 1) rest

def complement (s : CodeSet) : CodeSet := ⟨gaps 0 s.normalize.ranges⟩

def inter (s t : CodeSet) : CodeSet := (s.complement.union t.complement).complement

def diff (s t : CodeSet) : CodeSet := (s.complement.union t).complement

def symmDiff (s t : CodeSet) : CodeSet := (s.union t).diff (s.inter t)

end CodeSet

end ApiContract.Unicode

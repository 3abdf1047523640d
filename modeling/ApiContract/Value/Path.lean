import ApiContract.Value.Basic

/-!
Places inside a value: a root name and the keys and indices that lead from there.
-/

namespace ApiContract

/-- One step into a value. -/
inductive Segment where
  | key (name : String)
  | index (i : Nat)
deriving DecidableEq

/-- A place below a named root. -/
structure Path where
  root : String
  segments : List Segment := []
deriving DecidableEq

namespace Segment

def text : Segment → String
  | key name => name
  | index i => toString i

end Segment

namespace Path

def child (p : Path) (s : Segment) : Path := { p with segments := p.segments ++ [s] }

def text (p : Path) : String := p.segments.foldl (fun t s => t ++ "." ++ s.text) p.root

@[simp] theorem root_child (p : Path) (s : Segment) : (p.child s).root = p.root := rfl

@[simp] theorem segments_child (p : Path) (s : Segment) :
    (p.child s).segments = p.segments ++ [s] := rfl

end Path

namespace Value

def step? (v : Value) (s : Segment) : Option Value :=
  match v, s with
  | object members, .key name => Entries.get? members name
  | array items, .index i => items[i]?
  | _, _ => none

def at? (v : Value) : List Segment → Option Value
  | [] => some v
  | s :: rest => (v.step? s).bind fun w => w.at? rest

@[simp] theorem at?_nil (v : Value) : v.at? [] = some v := rfl

end Value

end ApiContract

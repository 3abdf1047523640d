import ApiContract.Regex.Token

/-!
Reading a pattern: tokens are shifted onto a stack of open groups.

A pattern is refused when a parenthesis has no partner, a repetition nothing to repeat or a group
name a namesake, when it is nested too deep, and when its counted repetitions unfold too far.
-/

namespace ApiContract.Regex

/-- What has been read of an open group: finished alternatives and the pieces of the current one,
the last ones first, and the flags to return to. -/
structure Frame where
  outside : Flags
  alternatives : List Piece := []
  pieces : List Piece := []

structure ParseState where
  flags : Flags := {}
  frame : Frame := { outside := {} }
  enclosing : List Frame := []
  names : List String := []

/-- Pieces in a row; the last one stands first. More than one count as a level. -/
def concat (pieces : List Piece) : Piece :=
  match pieces with
  | [] => { regex := .empty }
  | [p] => { p with repeatable := true }
  | last :: before =>
    { regex := before.foldl (fun r p => .seq p.regex r) last.regex
      depth := (pieces.map Piece.depth).foldl Nat.max 0 + 1 }

def Frame.close (f : Frame) : Piece :=
  match f.alternatives with
  | [] => concat f.pieces
  | before =>
    let last := concat f.pieces
    { regex := before.foldl (fun r p => .alt p.regex r) last.regex
      depth := ((last :: before).map Piece.depth).foldl Nat.max 0 + 1 }

def ParseState.push (s : ParseState) (p : Piece) : ParseState :=
  { s with frame := { s.frame with pieces := p :: s.frame.pieces } }

def ParseState.shift? (s : ParseState) (t : Token) : Option ParseState :=
  match t with
  | .piece p => some (s.push p)
  | .setFlags flags =>
    some { s.push { regex := .empty, repeatable := false } with flags }
  | .opening inside name =>
    let opened : ParseState :=
      { s with
        flags := inside
        frame := { outside := s.flags }
        enclosing := s.frame :: s.enclosing }
    match name with
    | none => some opened
    | some name =>
      if s.names.contains name then none else some { opened with names := name :: s.names }
  | .closing =>
    match s.enclosing with
    | [] => none
    | outer :: rest =>
      let p := s.frame.close
      let grouped : Piece := { regex := p.regex, depth := p.depth + 1 }
      some { s with
        flags := s.frame.outside
        frame := { outer with pieces := grouped :: outer.pieces }
        enclosing := rest }
  | .bar =>
    some { s with frame :=
      { s.frame with alternatives := concat s.frame.pieces :: s.frame.alternatives, pieces := [] } }
  | .repetition least most =>
    match s.frame.pieces with
    | p :: before =>
      if p.repeatable then
        let repeated : Piece := { regex := .rep p.regex least most, depth := p.depth + 1 }
        some { s with frame := { s.frame with pieces := repeated :: before } }
      else none
    | [] => none

def shiftAll? : Nat → ParseState → List Char → Option ParseState
  | 0, _, _ => none
  | fuel + 1, s, cs =>
    match skip s.flags.verbose cs with
    | [] => some s
    | cs =>
      (token? s.flags cs).bind fun (t, rest) =>
        (s.shift? t).bind fun s => shiftAll? fuel s rest

/-- Groups, repetitions, sets and rows may be nested this deep. -/
def nestingLimit : Nat := 250

/-- The number of single steps an expression unfolds to. -/
def unfolded : Regex → Nat
  | .empty => 0
  | .set s => Nat.max 1 (s.ranges.length / 2)
  | .look _ => 1
  | .seq r s => unfolded r + unfolded s
  | .alt r s => unfolded r + unfolded s + 1
  | .rep r least most =>
    match most with
    | none => unfolded r * Nat.max least 1 + 1
    | some most => unfolded r * most + (most - least)

/-- An expression may unfold to this many steps. -/
def unfoldingLimit : Nat := 327680

def ofPattern? (pattern : String) : Option Regex :=
  let cs := pattern.toList
  (shiftAll? (cs.length + 1) {} cs).bind fun s =>
    match s.enclosing with
    | [] =>
      let p := s.frame.close
      if p.depth ≤ nestingLimit ∧ unfolded p.regex ≤ unfoldingLimit then some p.regex else none
    | _ => none

end ApiContract.Regex

import ApiContract.Unicode.Category
import ApiContract.Unicode.Property

/-!
Regular expressions over characters and the places of a text that they reach.

A place is the gap before a character or after the last one, counted from zero. A set of places is
the natural number with those bits, so that one pass handles all of them. `Regex.Spans` says on its
own from where to where an expression matches; `Regex.reach` computes the places that are matched
up to from a given set.
-/

namespace ApiContract

/-- A condition on the characters around a place. -/
inductive Look where
  | start
  | finish
  | lineStart
  | lineEnd
  | crlfStart
  | crlfEnd
  | word (unicode : Bool)
  | notWord (unicode : Bool)
  | wordStart (unicode : Bool)
  | wordEnd (unicode : Bool)
  | wordStartHalf (unicode : Bool)
  | wordEndHalf (unicode : Bool)
deriving DecidableEq

/-- A regular expression. A repetition has a least and possibly a greatest count. -/
inductive Regex where
  | empty
  | set (members : Unicode.CodeSet)
  | look (l : Look)
  | seq (first second : Regex)
  | alt (first second : Regex)
  | rep (body : Regex) (least : Nat) (most : Option Nat)
deriving DecidableEq

namespace Look

open Unicode

def wordChars : CodeSet :=
  alphabetic.union (marks.union (decimalDigits.union (connectors.union joinControl)))

def asciiWordChars : CodeSet := ⟨[(0x30, 0x39), (0x41, 0x5A), (0x5F, 0x5F), (0x61, 0x7A)]⟩

def isWord (unicode : Bool) : Option Char → Bool
  | none => false
  | some c => (if unicode then wordChars else asciiWordChars).contains c.toNat

/-- Whether the condition holds between two characters, an end of the text being `none`. -/
def holds (l : Look) (before after : Option Char) : Bool :=
  match l with
  | start => before.isNone
  | finish => after.isNone
  | lineStart => before.isNone || before == some '\n'
  | lineEnd => after.isNone || after == some '\n'
  | crlfStart => before.isNone || before == some '\n' || (before == some '\r' && after != some '\n')
  | crlfEnd => after.isNone || after == some '\r' || (after == some '\n' && before != some '\r')
  | word u => isWord u before != isWord u after
  | notWord u => isWord u before == isWord u after
  | wordStart u => !isWord u before && isWord u after
  | wordEnd u => isWord u before && !isWord u after
  | wordStartHalf u => !isWord u before
  | wordEndHalf u => !isWord u after

def places (l : Look) (before : Option Char) : List Char → Nat
  | [] => (l.holds before none).toNat
  | c :: cs => (l.holds before (some c)).toNat + 2 * places l (some c) cs

end Look

namespace Regex

def memberPlaces (s : Unicode.CodeSet) : List Char → Nat
  | [] => 0
  | c :: cs => (s.contains c.toNat).toNat + 2 * memberPlaces s cs

/-- Applies a step a number of times, stopping when nothing changes. -/
def power (step : Nat → Nat) : Nat → Nat → Nat
  | 0, ps => ps
  | n + 1, ps =>
    let qs := step ps
    if qs = ps then ps else power step n qs

/-- Adds what a step reaches, at most a number of times, stopping when nothing is added. -/
def closure (step : Nat → Nat) : Nat → Nat → Nat
  | 0, ps => ps
  | n + 1, ps =>
    let qs := ps ||| step ps
    if qs = ps then ps else closure step n qs

/-- The places up to which the expression matches from one of the given places. -/
def reach (text : List Char) : Regex → Nat → Nat
  | empty, ps => ps
  | set s, ps => (ps &&& memberPlaces s text) <<< 1
  | look l, ps => ps &&& l.places none text
  | seq r s, ps => reach text s (reach text r ps)
  | alt r s, ps => reach text r ps ||| reach text s ps
  | rep r least most, ps =>
    let start := power (reach text r) least ps
    match most with
    | none => closure (reach text r) (text.length + 1) start
    | some most => closure (reach text r) (most - least) start

def allPlaces (text : List Char) : Nat := Nat.pow 2 (text.length + 1) - 1

/-- Whether the expression matches somewhere in the text. -/
def isMatch (r : Regex) (text : List Char) : Bool := r.reach text (allPlaces text) != 0

mutual

/-- The expression matches from place `i` to place `j` of the text. -/
inductive Spans (text : List Char) : Regex → Nat → Nat → Prop
  | empty {i} : Spans text .empty i i
  | set {s i c} : text[i]? = some c → s.contains c.toNat = true → Spans text (.set s) i (i + 1)
  | look {l i} : i ≤ text.length →
      l.holds (if i = 0 then none else text[i - 1]?) text[i]? = true → Spans text (.look l) i i
  | seq {r s i j k} : Spans text r i j → Spans text s j k → Spans text (.seq r s) i k
  | altLeft {r s i j} : Spans text r i j → Spans text (.alt r s) i j
  | altRight {r s i j} : Spans text s i j → Spans text (.alt r s) i j
  | rep {r least most n i j} : least ≤ n → (∀ m, most = some m → n ≤ m) →
      SpansTimes text r n i j → Spans text (.rep r least most) i j

/-- The expression matches `n` times in a row from place `i` to place `j`. -/
inductive SpansTimes (text : List Char) : Regex → Nat → Nat → Nat → Prop
  | zero {r i} : SpansTimes text r 0 i i
  | succ {r n i j k} : Spans text r i j → SpansTimes text r n j k → SpansTimes text r (n + 1) i k

end

end Regex

end ApiContract

import ApiContract.Regex.Classes

/-!
Tokens of a pattern.

A token is an atom, a mark of a group or an alternative, a change of flags, or a repetition of what
stands before it. Reading one depends on the flags in force.
-/

namespace ApiContract.Regex

open Unicode

/-- A part of an expression with the depth of nesting inside it. A change of flags leaves a part
that cannot be repeated. -/
structure Piece where
  regex : Regex
  depth : Nat := 0
  repeatable : Bool := true

inductive Token where
  | piece (p : Piece)
  | setFlags (flags : Flags)
  | opening (inside : Flags) (name : Option String)
  | closing
  | bar
  | repetition (least : Nat) (most : Option Nat)

def literal? (flags : Flags) (n : Nat) (isByte : Bool) : Option Regex :=
  if flags.unicode then some (.set (foldIf flags (CodeSet.singleton n)))
  else if n ≤ 0x7F then some (.set (foldIf flags (CodeSet.singleton n)))
  else if isByte then none
  else some (.set (CodeSet.singleton n))

def newline : CodeSet := CodeSet.singleton 10

/-- The set of the dot: all characters, or all but the line terminators. -/
def dot? (flags : Flags) : Option Regex :=
  if !flags.unicode then none
  else if flags.dotAll then some (.set CodeSet.all)
  else if flags.crlf then some (.set (newline.union (CodeSet.singleton 13)).complement)
  else some (.set newline.complement)

def caret (flags : Flags) : Look :=
  if flags.multiLine then if flags.crlf then .crlfStart else .lineStart else .start

def dollar (flags : Flags) : Look :=
  if flags.multiLine then if flags.crlf then .crlfEnd else .lineEnd else .finish

def setFlag? (flags : Flags) (c : Char) (on : Bool) : Option Flags :=
  match c with
  | 'i' => some { flags with ignoreCase := on }
  | 'm' => some { flags with multiLine := on }
  | 's' => some { flags with dotAll := on }
  | 'U' => some { flags with swapGreed := on }
  | 'u' => some { flags with unicode := on }
  | 'R' => some { flags with crlf := on }
  | 'x' => some { flags with verbose := on }
  | _ => none

/-- Reads flag letters up to a colon or a closing parenthesis, which is left in the text. Letters
must differ, and the one minus sign must stand before a letter. -/
def flagLetters? (seen : List Char) (on : Bool) (flags : Flags) :
    List Char → Option (Flags × Bool × List Char)
  | [] => none
  | c :: cs =>
    if c = ':' ∨ c = ')' then
      if seen.head? = some '-' then none else some (flags, seen.isEmpty, c :: cs)
    else if seen.contains c then none
    else if c = '-' then flagLetters? (c :: seen) false flags cs
    else (setFlag? flags c on).bind fun flags => flagLetters? (c :: seen) on flags cs

def isNameChar (first : Bool) (c : Char) : Bool :=
  c = '_' || Unicode.alphabetic.contains c.toNat ||
  (!first && (c = '.' || c = '[' || c = ']' || Unicode.numerals.contains c.toNat))

def groupName? (cs : List Char) : Option (String × List Char) :=
  let name := cs.takeWhile (· ≠ '>')
  match name, cs.dropWhile (· ≠ '>') with
  | c :: more, _ :: rest =>
    if isNameChar true c ∧ more.all (isNameChar false) then
      some (String.ofList name, rest)
    else none
  | _, _ => none

def group? (flags : Flags) (cs : List Char) : Option (Token × List Char) :=
  match skip flags.verbose cs with
  | '?' :: 'P' :: '<' :: rest => named rest
  | '?' :: '<' :: '=' :: _ => none
  | '?' :: '<' :: '!' :: _ => none
  | '?' :: '<' :: rest => named rest
  | '?' :: rest =>
    (flagLetters? [] true flags rest).bind fun (inside, unchanged, tail) =>
      match tail with
      | ')' :: tail => if unchanged then none else some (.setFlags inside, tail)
      | _ :: tail => some (.opening inside none, tail)
      | [] => none
  | rest => some (.opening flags none, rest)
where
  named (rest : List Char) : Option (Token × List Char) :=
    (groupName? rest).map fun (name, tail) => (.opening flags (some name), tail)

/-- Counts have 32 bits. -/
def countLimit : Nat := 0x100000000

def count? (verbose : Bool) (cs : List Char) : Option Nat × List Char :=
  let cs := Text.trimStart cs
  let (ds, rest) := gatherWhile verbose Char.isDigit cs.length cs
  let n := Decimal.ofDigits ds
  (if ds = [] ∨ countLimit ≤ n then none else some n, Text.trimStart rest)

def dropLazy : List Char → List Char
  | '?' :: rest => rest
  | other => other

/-- Reads a counted repetition from behind its brace. -/
def counted? (flags : Flags) (cs : List Char) : Option (Token × List Char) :=
  match count? flags.verbose (skip flags.verbose cs) with
  | (none, _) => none
  | (some least, '\x7d' :: rest) =>
    some (.repetition least (some least), dropLazy (skip flags.verbose rest))
  | (some least, ',' :: rest) =>
    match skip flags.verbose rest with
    | '\x7d' :: rest => some (.repetition least none, dropLazy (skip flags.verbose rest))
    | rest =>
      match count? flags.verbose rest with
      | (some most, '\x7d' :: rest) =>
        if least ≤ most then
          some (.repetition least (some most), dropLazy (skip flags.verbose rest))
        else none
      | _ => none
  | _ => none

/-- Reads a token at the head of a text that neither is empty nor begins with a skipped blank. -/
def token? (flags : Flags) (cs : List Char) : Option (Token × List Char) :=
  match cs with
  | [] => none
  | '(' :: rest => group? flags rest
  | ')' :: rest => some (.closing, rest)
  | '|' :: rest => some (.bar, rest)
  | '[' :: rest =>
    (bracketed? flags rest).map fun (p, tail) => (.piece ⟨.set p.set, p.depth, true⟩, tail)
  | '?' :: rest => some (.repetition 0 (some 1), dropLazy rest)
  | '*' :: rest => some (.repetition 0 none, dropLazy rest)
  | '+' :: rest => some (.repetition 1 none, dropLazy rest)
  | '\x7b' :: rest => counted? flags rest
  | '\\' :: rest =>
    (escape? flags rest).bind fun (e, tail) =>
      match e with
      | .literal n isByte =>
        (literal? flags n isByte).map fun r => (.piece { regex := r }, tail)
      | .look l => some (.piece { regex := .look l }, tail)
      | .set s => some (.piece { regex := .set s }, tail)
  | '.' :: rest => (dot? flags).map fun r => (.piece { regex := r }, rest)
  | '^' :: rest => some (.piece { regex := .look (caret flags) }, rest)
  | '$' :: rest => some (.piece { regex := .look (dollar flags) }, rest)
  | c :: rest => (literal? flags c.toNat false).map fun r => (.piece { regex := r }, rest)

end ApiContract.Regex

import ApiContract.Number.Decimal
import ApiContract.Regex.Basic
import ApiContract.Text.Blank
import ApiContract.Text.Hex
import ApiContract.Text.Split
import ApiContract.Unicode.Folding
import ApiContract.Unicode.Script

/-!
Character classes of a pattern: escapes such as `\d` and `\pL`, and bracketed sets with their nested
sets and set operators.

What a class holds depends on the flags in force: without regard to case it is closed under simple
case folding, and outside Unicode mode it is made of bytes, of which only ASCII may remain.
-/

namespace ApiContract.Regex

open Unicode

/-- The flags in force at a place of a pattern. -/
structure Flags where
  ignoreCase : Bool := false
  multiLine : Bool := false
  dotAll : Bool := false
  swapGreed : Bool := false
  unicode : Bool := true
  crlf : Bool := false
  verbose : Bool := false
deriving DecidableEq

/-- In verbose mode, drops blanks and comments. -/
def skip (verbose : Bool) (cs : List Char) : List Char :=
  if verbose then go false cs else cs
where
  go (comment : Bool) : List Char → List Char
    | [] => []
    | c :: cs =>
      if comment then go (c ≠ '\n') cs
      else if Text.isBlank c then go false cs
      else if c = '#' then go true cs
      else c :: cs

def advance (verbose : Bool) (cs : List Char) : List Char := skip verbose (cs.drop 1)

def gatherWhile (verbose : Bool) (test : Char → Bool) : Nat → List Char → List Char × List Char
  | 0, cs => ([], cs)
  | _, [] => ([], [])
  | fuel + 1, c :: cs =>
    if test c then
      let (got, rest) := gatherWhile verbose test fuel (skip verbose cs)
      (c :: got, rest)
    else ([], c :: cs)

/-- Lower case without separators and without a leading `is`. -/
def propertyName (cs : List Char) : String :=
  let isLed := (cs.take 2).map Char.toLower = ['i', 's']
  let body := if isLed then cs.drop 2 else cs
  let kept := (body.filter fun c => c ≠ ' ' ∧ c ≠ '_' ∧ c ≠ '-' ∧ c.toNat ≤ 0x7F).map Char.toLower
  if isLed ∧ kept = ['c'] then "isc" else String.ofList kept

/-- A property, a general category or a script. `cf`, `sc` and `lc` are categories. -/
def namedSet? (cs : List Char) : Option CodeSet :=
  let name := propertyName cs
  if name = "cf" ∨ name = "sc" ∨ name = "lc" then category? name
  else property? name <|> category? name <|> script? name

def valuedSet? (property value : List Char) : Option CodeSet :=
  let value := propertyName value
  match propertyName property with
  | "gc" | "generalcategory" => category? value
  | "sc" | "script" => script? value
  | "scx" | "scriptextensions" => scriptExtensions? value
  | _ => none

/-- The set between the braces of `\p`, and whether it is to be complemented once more. -/
def bracedSet? (cs : List Char) : Option (CodeSet × Bool) :=
  match Text.splitAt? ['!', '='] cs with
  | some (name, value) => (valuedSet? name value).map (·, true)
  | none =>
    match Text.splitAt? [':'] cs <|> Text.splitAt? ['='] cs with
    | some (name, value) => (valuedSet? name value).map (·, false)
    | none => (namedSet? cs).map (·, false)

def lastByte : Nat := 0xFF

def complementIn (flags : Flags) (s : CodeSet) : CodeSet :=
  if flags.unicode then s.complement else s.complement.inter (CodeSet.range 0 lastByte)

def isAsciiSet (s : CodeSet) : Bool := s.ranges.all fun r => r.2 ≤ 0x7F

def foldAscii (s : CodeSet) : CodeSet :=
  let pairs := (List.range 26).map fun i => (0x41 + i, 0x61 + i)
  s.union (CodeSet.ofRanges (pairs.filterMap fun (u, l) =>
    if s.contains u then some (l, l) else if s.contains l then some (u, u) else none))

def foldIf (flags : Flags) (s : CodeSet) : CodeSet :=
  if flags.ignoreCase then if flags.unicode then s.foldCase else foldAscii s else s

def foldAndNegate (flags : Flags) (negated : Bool) (s : CodeSet) : CodeSet :=
  let folded := foldIf flags s
  if negated then complementIn flags folded else folded

def asciiDigits : CodeSet := CodeSet.range 0x30 0x39

def asciiBlanks : CodeSet := ⟨[(9, 13), (0x20, 0x20)]⟩

def perlSet (flags : Flags) (kind : Char) : CodeSet :=
  if kind = 'd' then if flags.unicode then decimalDigits else asciiDigits
  else if kind = 's' then if flags.unicode then blanks else asciiBlanks
  else if flags.unicode then Look.wordChars else Look.asciiWordChars

def posixSet? (name : String) : Option CodeSet :=
  match name with
  | "alnum" => some ⟨[(0x30, 0x39), (0x41, 0x5A), (0x61, 0x7A)]⟩
  | "alpha" => some ⟨[(0x41, 0x5A), (0x61, 0x7A)]⟩
  | "ascii" => some ⟨[(0, 0x7F)]⟩
  | "blank" => some ⟨[(9, 9), (0x20, 0x20)]⟩
  | "cntrl" => some ⟨[(0, 0x1F), (0x7F, 0x7F)]⟩
  | "digit" => some asciiDigits
  | "graph" => some ⟨[(0x21, 0x7E)]⟩
  | "lower" => some ⟨[(0x61, 0x7A)]⟩
  | "print" => some ⟨[(0x20, 0x7E)]⟩
  | "punct" => some ⟨[(0x21, 0x2F), (0x3A, 0x40), (0x5B, 0x60), (0x7B, 0x7E)]⟩
  | "space" => some asciiBlanks
  | "upper" => some ⟨[(0x41, 0x5A)]⟩
  | "word" => some Look.asciiWordChars
  | "xdigit" => some ⟨[(0x30, 0x39), (0x41, 0x46), (0x61, 0x66)]⟩
  | _ => none

/-- What a backslash and the characters behind it stand for. A byte is a character written with two
hexadecimal digits. -/
inductive Escape where
  | literal (n : Nat) (isByte : Bool)
  | look (l : Look)
  | set (s : CodeSet)

def scalar? (n : Nat) : Option Nat :=
  if n ≤ lastCodePoint ∧ ¬ (0xD800 ≤ n ∧ n ≤ 0xDFFF) then some n else none

/-- The hexadecimal forms: a fixed number of digits, or any number of them in braces. -/
def hexEscape? (verbose : Bool) (width : Nat) (cs : List Char) : Option (Escape × List Char) :=
  match cs with
  | [] => none
  | '\x7b' :: _ =>
    let (ds, rest) := gatherWhile verbose (fun c => c ≠ '\x7d') cs.length (advance verbose cs)
    match rest with
    | [] => none
    | _ =>
      if ds = [] then none
      else
        ((Text.hexNumber? ds).bind scalar?).map fun n => (.literal n false, advance verbose rest)
  | _ =>
    let (ds, rest) := gatherFixed verbose width cs
    if ds.length = width then
      ((Text.hexNumber? ds).bind scalar?).map fun n => (.literal n (width = 2), rest)
    else none
where
  gatherFixed (verbose : Bool) : Nat → List Char → List Char × List Char
    | 0, cs => ([], cs)
    | _, [] => ([], [])
    | n + 1, c :: cs =>
      let (got, rest) := gatherFixed verbose n (skip verbose cs)
      (c :: got, rest)

/-- The forms of `\p` and `\P`, without the letter. -/
def propertyEscape? (flags : Flags) (negated : Bool) (cs : List Char) :
    Option (Escape × List Char) :=
  let finish (s : CodeSet) (flip : Bool) (rest : List Char) : Option (Escape × List Char) :=
    if flags.unicode then some (.set (foldAndNegate flags (negated != flip) s), rest) else none
  match cs with
  | [] => none
  | '\x7b' :: _ =>
    let (name, rest) :=
      gatherWhile flags.verbose (fun c => c ≠ '\x7d') cs.length (advance flags.verbose cs)
    match rest with
    | [] => none
    | _ :: tail => (bracedSet? name).bind fun (s, flip) => finish s flip tail
  | '\\' :: _ => none
  | c :: _ => (namedSet? [c]).bind fun s => finish s false (advance flags.verbose cs)

def isMeta (c : Char) : Bool := "\\.+*?()|[]\x7b\x7d^$#&-~".toList.contains c

def isEscapable (c : Char) : Bool :=
  isMeta c || (c.toNat ≤ 0x7F && !c.isAlphanum && c ≠ '<' && c ≠ '>')

/-- The braces that may follow `\b`; `none` inside when they are no word boundary. -/
def boundaryName? (flags : Flags) (cs : List Char) : Option (Option (Look × List Char)) :=
  let isName (c : Char) : Bool := c.isAlpha || c = '-'
  let inner := advance flags.verbose cs
  match inner with
  | [] => none
  | c :: _ =>
    if !isName c then some none
    else
      let (name, rest) := gatherWhile flags.verbose isName cs.length inner
      match rest with
      | '\x7d' :: tail =>
        match String.ofList name with
        | "start" => some (some (.wordStart flags.unicode, tail))
        | "end" => some (some (.wordEnd flags.unicode, tail))
        | "start-half" => some (some (.wordStartHalf flags.unicode, tail))
        | "end-half" => some (some (.wordEndHalf flags.unicode, tail))
        | _ => none
      | _ => none

/-- Reads an escape; the text begins behind the backslash. -/
def escape? (flags : Flags) (cs : List Char) : Option (Escape × List Char) :=
  match cs with
  | [] => none
  | c :: rest =>
    let literal (n : Nat) : Option (Escape × List Char) := some (.literal n false, rest)
    let look (l : Look) : Option (Escape × List Char) := some (.look l, rest)
    if c.isDigit then none
    else if c = 'x' then hexEscape? flags.verbose 2 (skip flags.verbose rest)
    else if c = 'u' then hexEscape? flags.verbose 4 (skip flags.verbose rest)
    else if c = 'U' then hexEscape? flags.verbose 8 (skip flags.verbose rest)
    else if c = 'p' ∨ c = 'P' then
      propertyEscape? flags (c = 'P') (skip flags.verbose rest)
    else if c = 'd' ∨ c = 's' ∨ c = 'w' then some (.set (perlSet flags c), rest)
    else if c = 'D' ∨ c = 'S' ∨ c = 'W' then
      if flags.unicode then some (.set (perlSet flags c.toLower).complement, rest) else none
    else if isEscapable c then literal c.toNat
    else
      match c with
      | 'a' => literal 7
      | 'f' => literal 12
      | 't' => literal 9
      | 'n' => literal 10
      | 'r' => literal 13
      | 'v' => literal 11
      | 'A' => look .start
      | 'z' => look .finish
      | 'B' => look (.notWord flags.unicode)
      | '<' => look (.wordStart flags.unicode)
      | '>' => look (.wordEnd flags.unicode)
      | 'b' =>
        match rest with
        | '\x7b' :: _ =>
          (boundaryName? flags rest).map fun
            | some (l, tail) => (.look l, tail)
            | none => (.look (.word flags.unicode), rest)
        | _ => look (.word flags.unicode)
      | _ => none

/-- A set under construction with the depth of its deepest nested part. -/
structure Part where
  set : CodeSet
  depth : Nat

structure Items where
  set : CodeSet := CodeSet.empty
  count : Nat := 0
  depth : Nat := 0

def Items.push (items : Items) (p : Part) : Items :=
  ⟨⟨p.set.ranges ++ items.set.ranges⟩, items.count + 1, Nat.max items.depth p.depth⟩

/-- Several items count as one more level. -/
def Items.part (items : Items) : Part :=
  ⟨items.set.normalize, if items.count ≤ 1 then items.depth else items.depth + 1⟩

inductive SetOperator where
  | intersection
  | difference
  | symmetricDifference

/-- What waits for the part that is being read: an enclosing set with its own items, or the left
side of an operator. -/
inductive SetFrame where
  | enclosing (items : Items) (negated : Bool)
  | operator (op : SetOperator) (left : Part)

def SetOperator.apply (flags : Flags) (op : SetOperator) (left right : Part) : Part :=
  let l := foldIf flags left.set
  let r := foldIf flags right.set
  let set := match op with
    | intersection => l.inter r
    | difference => l.diff r
    | symmetricDifference => l.symmDiff r
  ⟨set, Nat.max left.depth right.depth + 1⟩

def closeOperators (flags : Flags) (right : Part) : List SetFrame → Part × List SetFrame
  | .operator op left :: frames => closeOperators flags (op.apply flags left right) frames
  | frames => (right, frames)

/-- The code of a literal item. Outside Unicode mode it is an ASCII character or a byte. -/
def literalItem? (flags : Flags) (n : Nat) (isByte : Bool) : Option Nat :=
  if flags.unicode ∨ n ≤ 0x7F ∨ isByte then some n else none

/-- One item that is not a nested set: an escape or a character. -/
def setItem? (flags : Flags) (cs : List Char) : Option (Escape × List Char) :=
  match cs with
  | [] => none
  | '\\' :: rest => escape? flags rest
  | c :: rest => some (.literal c.toNat false, rest)

/-- The character behind the next one. In verbose mode blanks between them do not count, and of a
comment only its mark is passed over. -/
def peekBehind (verbose : Bool) (cs : List Char) : Option Char :=
  if verbose then
    match Text.trimStart (cs.drop 1) with
    | '#' :: rest => (Text.trimStart rest).head?
    | other => other.head?
  else (cs.drop 1).head?

/-- An item or a range of two literal items. -/
def setRange? (flags : Flags) (cs : List Char) : Option (Part × List Char) :=
  (setItem? flags cs).bind fun (item, rest) =>
    let rest := skip flags.verbose rest
    match rest with
    | [] => none
    | c :: _ =>
      let behind := peekBehind flags.verbose rest
      if c ≠ '-' ∨ behind = some ']' ∨ behind = some '-' then
        match item with
        | .literal n isByte =>
          (literalItem? flags n isByte).map fun n => (⟨CodeSet.singleton n, 0⟩, rest)
        | .set s => some (⟨s, 0⟩, rest)
        | .look _ => none
      else
        (setItem? flags (advance flags.verbose rest)).bind fun (last, rest) =>
          match item, last with
          | .literal m isByte, .literal n isByte' => do
            let m ← literalItem? flags m isByte
            let n ← literalItem? flags n isByte'
            if m ≤ n then some (⟨CodeSet.range m n, 0⟩, rest) else none
          | _, _ => none

def leadingDashes (verbose : Bool) : Nat → Items → List Char → Items × List Char
  | fuel + 1, items, '-' :: cs =>
    leadingDashes verbose fuel (items.push ⟨CodeSet.singleton '-'.toNat, 0⟩) (skip verbose cs)
  | _, items, cs => (items, cs)

/-- Reads the head of a set from behind its bracket: whether it is negated, and the dashes or the
bracket that stand for themselves there. -/
def setHead? (flags : Flags) (cs : List Char) : Option (Bool × Items × List Char) :=
  let cs := skip flags.verbose cs
  let (negated, cs) := match cs with
    | '^' :: rest => (true, skip flags.verbose rest)
    | other => (false, other)
  let (items, cs) := leadingDashes flags.verbose cs.length {} cs
  match cs with
  | [] => none
  | ']' :: rest =>
    if items.count = 0 then
      match skip flags.verbose rest with
      | [] => none
      | rest => some (negated, items.push ⟨CodeSet.singleton ']'.toNat, 0⟩, rest)
    else some (negated, items, cs)
  | _ => some (negated, items, cs)

/-- Reads a set named between `[:` and `:]`, if there is one. -/
def posixItem? (flags : Flags) (cs : List Char) : Option (Part × List Char) :=
  match cs with
  | '[' :: ':' :: rest =>
    let (negated, rest) := match rest with
      | '^' :: more => (true, more)
      | other => (false, other)
    let name := rest.takeWhile (· ≠ ':')
    match rest.dropWhile (· ≠ ':') with
    | ':' :: ']' :: tail =>
      (posixSet? (String.ofList name)).map fun s => (⟨foldAndNegate flags negated s, 0⟩, tail)
    | _ => none
  | _ => none

def setRest? (flags : Flags) : Nat → List SetFrame → Items → List Char → Option (Part × List Char)
  | 0, _, _, _ => none
  | fuel + 1, frames, items, cs =>
    match skip flags.verbose cs with
    | [] => none
    | '[' :: rest =>
      match posixItem? flags ('[' :: rest) with
      | some (p, tail) => setRest? flags fuel frames (items.push p) tail
      | none =>
        (setHead? flags rest).bind fun (negated, inner, tail) =>
          setRest? flags fuel (.enclosing items negated :: frames) inner tail
    | ']' :: rest =>
      match closeOperators flags items.part frames with
      | (p, .enclosing outer negated :: frames) =>
        let closed : Part := ⟨foldAndNegate flags negated p.set, p.depth + 1⟩
        if frames.isEmpty then some (closed, rest)
        else setRest? flags fuel frames (outer.push closed) rest
      | _ => none
    | '&' :: '&' :: rest => openOperator fuel .intersection frames items rest
    | '-' :: '-' :: rest => openOperator fuel .difference frames items rest
    | '~' :: '~' :: rest => openOperator fuel .symmetricDifference frames items rest
    | other =>
      (setRange? flags other).bind fun (p, tail) =>
        setRest? flags fuel frames (items.push p) tail
where
  openOperator (fuel : Nat) (op : SetOperator) (frames : List SetFrame) (items : Items)
      (rest : List Char) : Option (Part × List Char) :=
    let (left, frames) := closeOperators flags items.part frames
    setRest? flags fuel (.operator op left :: frames) {} rest

def bracketed? (flags : Flags) (cs : List Char) : Option (Part × List Char) :=
  (setHead? flags cs).bind fun (negated, items, tail) =>
    (setRest? flags (cs.length + 1) [.enclosing {} negated] items tail).bind fun (p, rest) =>
      if flags.unicode ∨ isAsciiSet p.set then some (p, rest) else none

end ApiContract.Regex
